/-! The word of a slot: an id of 56 bits above a status byte. -/

namespace SharedCounters

inductive Status
  | notUsed | allocating | allocated | freed
  deriving DecidableEq, Repr

def Status.toByte : Status → UInt8
  | .notUsed => 0
  | .allocating => 1
  | .allocated => 2
  | .freed => 3

def Status.ofByte? (byte : UInt8) : Option Status :=
  if byte = 0 then some .notUsed
  else if byte = 1 then some .allocating
  else if byte = 2 then some .allocated
  else if byte = 3 then some .freed
  else none

def Status.name : Status → String
  | .notUsed => "NotUsed"
  | .allocating => "Allocating"
  | .allocated => "Allocated"
  | .freed => "Freed"

def largestId : UInt64 := 0xFFFFFFFFFFFFFF

abbrev SlotWord := UInt64

namespace SlotWord

def pack (id : UInt64) (status : Status) : SlotWord := (id <<< 8) ||| status.toByte.toUInt64

def id (word : SlotWord) : UInt64 := word >>> 8

/-- Bytes that name no status are possible in a foreign region. -/
def status? (word : SlotWord) : Option Status := Status.ofByte? word.toUInt8

def isFree (word : SlotWord) : Bool :=
  status? word == some .notUsed || status? word == some .freed

/-- What a search for an id does at a slot. -/
inductive Verdict
  | stop | next | here
  deriving DecidableEq, Repr

/-- A slot that was never used ends every search, and so does the id in any state but allocated. -/
def verdict (wanted : UInt64) (word : SlotWord) : Verdict :=
  if status? word = some .notUsed then .stop
  else if id word ≠ wanted then .next
  else if status? word = some .allocated then .here
  else .stop

theorem status?_eq_some_iff {word : SlotWord} {status : Status} :
    status? word = some status ↔ word.toUInt8 = status.toByte := by
  unfold status? Status.ofByte?
  constructor
  · intro h
    repeat' split at h
    all_goals first | (cases h; assumption) | cases h
  · intro h
    rw [h]
    cases status <;> decide

theorem pack_id_low (word : SlotWord) : (word >>> 8) <<< 8 ||| word.toUInt8.toUInt64 = word := by
  apply UInt64.toNat_inj.1
  have h := word.toNat_lt
  have e : (word.toNat >>> 8) <<< 8 % 2 ^ 64 = (word.toNat >>> 8) <<< 8 := by
    apply Nat.mod_eq_of_lt
    rw [Nat.shiftLeft_eq, Nat.shiftRight_eq_div_pow]
    omega
  rw [UInt64.toNat_or, UInt64.toNat_shiftLeft, UInt64.toNat_shiftRight, UInt8.toNat_toUInt64,
    UInt64.toNat_toUInt8, show (8 : UInt64).toNat % 64 = 8 from rfl, e,
    ← Nat.shiftLeft_add_eq_or_of_lt (by omega), Nat.shiftLeft_eq, Nat.shiftRight_eq_div_pow]
  omega

theorem eq_pack_of_status {word : SlotWord} {status : Status} (h : status? word = some status) :
    word = pack (id word) status := by
  rw [status?_eq_some_iff] at h
  rw [pack, id, ← h, pack_id_low]

theorem verdict_eq_here {wanted : UInt64} {word : SlotWord} (h : verdict wanted word = .here) :
    word = pack wanted .allocated := by
  unfold verdict at h
  split at h
  · cases h
  · split at h
    · cases h
    · split at h
      · next hid hs => rw [eq_pack_of_status hs, Decidable.of_not_not hid]
      · cases h

end SlotWord

end SharedCounters
