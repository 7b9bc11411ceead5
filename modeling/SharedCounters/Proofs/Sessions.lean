import SharedCounters.Proofs.Creating

/-! Sessions with any number of writers, each with a file of its own: counters are added, used, closed,
dropped and freed, and views are opened, in any order. A session keeps an account of what its user did
and was given back, and never looks into a region for it. -/

namespace SharedCounters

/-- Where a writer makes its region: at a path, under a name in its directory, or in an open file. -/
inductive Place
  | path (p : Path)
  | name (p : Path)
  | file (number : Nat)

def Place.make (place : Place) (statics : Statics) (slots : Nat) (settings : Settings) (origin : Origin) :
    Host Writer :=
  match place with
  | .path p => Writer.make p statics slots settings origin
  | .name p => Writer.makeByName p statics slots settings origin
  | .file number => Writer.remake number statics slots settings origin

inductive Source
  | path (p : Path)
  | file (number : Nat)

namespace Source

def view : Source → Host Reader
  | .path p => Reader.ofPath p
  | .file number => do Reader.ofMapping (← Mapping.ofOpen number false)

def leadsTo (fs : FileSystem) : Source → Option Nat
  | .path p =>
    match fs.find p with
    | .ok (_, .file number) => some number
    | _ => none
  | .file number => some number

end Source

inductive Fate
  | held
  | dropped
  | given (keeper : Nat) (answer : Bool)
  deriving DecidableEq

/-- What the user of a handle knows of it: the attempt that made it, what was asked for then, and what
was done through it and given back, oldest first. -/
structure Account where
  attempt : Nat
  label : String
  initial : Int64
  handle : Handle
  past : List (Use × Gain)
  fate : Fate

namespace Account

def record (use : Use) (gain : Gain) (a : Account) : Account := { a with past := a.past ++ [(use, gain)] }

def close (a : Account) : Account := { a with handle := a.handle.close }

def drop (a : Account) : Account := { a with fate := .dropped }

def give (keeper : Nat) (answer : Bool) (a : Account) : Account := { a with fate := .given keeper answer }

def uses (a : Account) : List Use := a.past.map Prod.fst

def gains (a : Account) : List Gain := a.past.map Prod.snd

def value (a : Account) : Int64 := (Use.reference a.uses a.initial).2

/-- Not given to its own store to be freed. -/
def Allocated (store : Nat) (a : Account) : Prop := ∀ answer, a.fate ≠ .given store answer

def reading (a : Account) : Reading := ⟨a.handle.id, keptLabel a.label, a.value⟩

end Account

/-- A writer, how often a counter was asked for, the handles it gave out, and the views of its file. -/
structure Ledger where
  writer : Writer
  attempts : Nat
  accounts : List Account
  views : List Reader

namespace Ledger

def add (l : Ledger) (writer : Writer) (label : String) (initial : Int64) (result : Except Refusal Handle) :
    Ledger :=
  { l with
    writer := writer
    attempts := l.attempts + 1
    accounts := match result with
      | .ok handle => l.accounts ++ [⟨l.attempts + 1, label, initial, handle, [], .held⟩]
      | .error _ => l.accounts }

def held (l : Ledger) (attempt : Nat) : Option Account :=
  l.accounts.find? fun a => a.attempt = attempt ∧ a.fate = .held

def change (l : Ledger) (attempt : Nat) (f : Account → Account) : Ledger :=
  { l with accounts := l.accounts.map fun a => if a.attempt = attempt then f a else a }

def noticed (view : Reader) (l : Ledger) : Ledger :=
  if l.writer.mapping.file = view.mapping.file then { l with views := view :: l.views } else l

end Ledger

/-- What the users of a session ask for. Handles are named by their store and the attempt that made
them; meanwhile anything may happen elsewhere in the file system. -/
inductive Request
  | create (place : Place) (statics : Statics) (slots : Nat) (settings : Settings) (origin : Origin)
  | add (store : Nat) (label : String) (initial : Int64)
  | use (store attempt : Nat) (use : Use)
  | close (store attempt : Nat)
  | drop (store attempt : Nat)
  | free (store attempt : Nat)
  | freeBy (keeper store attempt : Nat)
  | view (source : Source)
  | elsewhere (fs : FileSystem)

structure Session where
  fs : FileSystem
  ledgers : List Ledger

namespace Session

def start (fs : FileSystem) : Session := ⟨fs, []⟩

def withHandle (s : Session) (store attempt : Nat) (act : Handle → Host (Account → Account)) :
    Except Failure Session :=
  match s.ledgers[store]? with
  | none => .ok s
  | some ledger =>
    match ledger.held attempt with
    | none => .ok s
    | some account =>
      match act account.handle s.fs with
      | .ok f fs => .ok ⟨fs, s.ledgers.set store (ledger.change attempt f)⟩
      | .error failure _ => .error failure

/-- A creation may fail, and so may opening a view, which can be asked for on any file. Nothing else is
expected to; a counter that is refused is no failure. -/
def step (s : Session) : Request → Except Failure Session
  | .create place statics slots settings origin =>
    match place.make statics slots settings origin s.fs with
    | .ok writer fs => .ok ⟨fs, s.ledgers ++ [⟨writer, 0, [], []⟩]⟩
    | .error _ fs => .ok { s with fs := fs }
  | .add store label initial =>
    match s.ledgers[store]? with
    | none => .ok s
    | some ledger =>
      match ledger.writer.add label initial s.fs with
      | .ok (writer, result) fs => .ok ⟨fs, s.ledgers.set store (ledger.add writer label initial result)⟩
      | .error failure _ => .error failure
  | .use store attempt use => s.withHandle store attempt fun c => return .record use (← use.through c)
  | .close store attempt => s.withHandle store attempt fun _ => return .close
  | .drop store attempt => s.withHandle store attempt fun _ => return .drop
  | .free store attempt => s.withHandle store attempt fun c => return .give store (← c.free)
  | .freeBy keeper store attempt =>
    match s.ledgers[keeper]? with
    | none => .ok s
    | some ledger => s.withHandle store attempt fun c => return .give keeper (← ledger.writer.free c)
  | .view source =>
    match source.view s.fs with
    | .ok view fs => .ok ⟨fs, s.ledgers.map (Ledger.noticed view)⟩
    | .error _ fs => .ok { s with fs := fs }
  | .elsewhere fs => .ok { s with fs := fs }

def run : List Request → Session → Except Failure Session
  | [], s => .ok s
  | request :: rest, s =>
    match s.step request with
    | .ok s' => run rest s'
    | .error failure => .error failure

def Owns (s : Session) (file : Nat) : Prop := ∃ l ∈ s.ledgers, l.writer.mapping.file = file

/-- An open file that is replaced is there and belongs to no writer, nobody writes to the file of a
writer elsewhere, and no store is asked for 2 ^ 56 counters. -/
def Admits (s : Session) : Request → Prop
  | .create (.file number) _ _ _ _ => number < s.fs.contents.size ∧ ¬ s.Owns number
  | .add store _ _ => ∀ l ∈ s.ledgers[store]?, l.attempts + 1 < 2 ^ 56
  | .elsewhere fs => s.fs.Keeps s.Owns fs
  | _ => True

def AdmitsAll : List Request → Session → Prop
  | [], _ => True
  | request :: rest, s => s.Admits request ∧ ∀ s', s.step request = .ok s' → AdmitsAll rest s'

instance decidableOwns (s : Session) : DecidablePred s.Owns := fun file =>
  inferInstanceAs (Decidable (∃ l ∈ s.ledgers, l.writer.mapping.file = file))

instance decidableAdmits (s : Session) : (request : Request) → Decidable (s.Admits request)
  | .create (.file number) _ _ _ _ =>
    inferInstanceAs (Decidable (number < s.fs.contents.size ∧ ¬ s.Owns number))
  | .add store _ _ => inferInstanceAs (Decidable (∀ l ∈ s.ledgers[store]?, l.attempts + 1 < 2 ^ 56))
  | .elsewhere fs => inferInstanceAs (Decidable (s.fs.Keeps s.Owns fs))
  | .create (.path _) _ _ _ _ | .create (.name _) _ _ _ _ | .use _ _ _ | .close _ _ | .drop _ _
  | .free _ _ | .freeBy _ _ _ | .view _ => inferInstanceAs (Decidable True)

instance decidableAdmitsAll : (requests : List Request) → (s : Session) → Decidable (AdmitsAll requests s)
  | [], _ => inferInstanceAs (Decidable True)
  | request :: rest, s =>
    match h : s.step request with
    | .ok s' =>
      have := decidableAdmitsAll rest s'
      decidable_of_iff (s.Admits request ∧ AdmitsAll rest s')
        ⟨fun both => ⟨both.1, fun _ e => Except.ok.inj (h.symm.trans e) ▸ both.2⟩,
          fun both => ⟨both.1, both.2 s' h⟩⟩
    | .error _ =>
      decidable_of_iff (s.Admits request)
        ⟨fun first => ⟨first, fun _ e => nomatch h.symm.trans e⟩, And.left⟩

end Session

/-- The view lists the counters that were added and not freed, each once, with the label that was kept
and the value that the uses of its handle led to. -/
def Ledger.ShownBy (l : Ledger) (store : Nat) (fs : FileSystem) (view : Reader) : Prop :=
  ∃ listing, view.liveCounters fs = .ok listing fs ∧ (listing.map Reading.id).Nodup ∧
    ∀ reading, reading ∈ listing ↔ ∃ a ∈ l.accounts, a.Allocated store ∧ reading = a.reading

/-- What the users of a store can rely on. -/
structure Ledger.Sound (l : Ledger) (store : Nat) (fs : FileSystem) : Prop where
  /-- The attempts are numbered, the failed ones too. -/
  lastId : l.writer.lastId.toNat = l.attempts
  ids : ∀ a ∈ l.accounts, a.handle.id.toNat = a.attempt
  labels : ∀ a ∈ l.accounts, a.handle.label = keptLabel a.label
  /-- Values that are in use lie apart. -/
  apart : l.accounts.Pairwise fun a b =>
    a.Allocated store → b.Allocated store → a.handle.offset ≠ b.handle.offset
  /-- What a handle gave back, its own uses alone decide. -/
  gains : ∀ a ∈ l.accounts, a.gains = (Use.reference a.uses a.initial).1
  /-- Views that were opened earlier. -/
  views : ∀ view ∈ l.views, l.ShownBy store fs view
  /-- Views that are opened now. -/
  opening : ∀ source : Source, source.leadsTo fs = some l.writer.mapping.file →
    ∃ view fs', source.view fs = .ok view fs' ∧ l.ShownBy store fs' view
  /-- Its own store frees a counter, another one does not. -/
  answers : ∀ a ∈ l.accounts, ∀ keeper answer, a.fate = .given keeper answer →
    answer = decide (keeper = store)

def Session.Sound (s : Session) : Prop :=
  ∀ store (l : Ledger), s.ledgers[store]? = some l → l.Sound store s.fs

end SharedCounters
