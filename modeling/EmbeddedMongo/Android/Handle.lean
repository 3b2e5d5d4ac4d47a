import Mathlib

/-!
# Handles

`embedded-mongodb-android/src/handle.rs`: what a handle is, and where the next one comes from.
The process tag is drawn from a hash that is not modelled; `finish` stands for it.
-/

namespace EmbeddedMongo.Android

/-- Identity of one open client, as it crosses the boundary in a Java `long`: a `NonZeroI64`. -/
structure HandleId where
  raw : Int64
  nonzero : raw ≠ 0
  deriving DecidableEq

instance : ToString HandleId := ⟨fun id => toString id.raw⟩

/-- How many low bits of an id are the sequence; the rest, minus the sign, are the tag. -/
def SEQUENCE_BITS : Nat := 32

/-- The widest tag that leaves the sign bit clear. -/
def TAG_MASK : Int64 := 0x7fffffff

/-- `process_tag` -/
def processTag (finish : UInt64) : Int64 := max (finish.toInt64 &&& TAG_MASK) 1

/-- A number that is not negative is the one its bits spell. -/
theorem toInt_eq_toNat {n : Int64} (h : 0 ≤ n.toInt) : n.toInt = n.toBitVec.toNat := by
  have hbits : n.toInt = n.toBitVec.toInt := rfl
  rw [hbits, BitVec.toInt_eq_toNat_cond] at h ⊢
  split at h <;> split <;> omega

namespace HandleId

/-- Accepts what Java handed over. -/
def new (raw : Int64) : Option HandleId :=
  if h : raw > 0 then some ⟨raw, fun hzero => by rw [hzero] at h; exact absurd h (by decide)⟩ else none

/-- `HandleId::from_parts` -/
def fromParts (tag : Int64) (sequence : UInt32) : Option HandleId :=
  let raw := Int64.ofBitVec ((tag.toBitVec <<< SEQUENCE_BITS) ||| sequence.toBitVec.setWidth 64)
  if h : raw = 0 then none else some ⟨raw, h⟩

/-- The sequence is in the low bits, whatever the tag. -/
theorem fromParts_low {tag : Int64} {sequence : UInt32} {id : HandleId} (h : fromParts tag sequence = some id) :
    id.raw.toBitVec.setWidth 32 = sequence.toBitVec := by
  unfold fromParts at h
  dsimp only at h
  split at h
  · cases h
  · cases h
    ext i hi
    simp [SEQUENCE_BITS]

/-- An id tells its number. -/
theorem fromParts_inj {tag tag' : Int64} {sequence sequence' : UInt32} {id : HandleId}
    (h : fromParts tag sequence = some id) (h' : fromParts tag' sequence' = some id) : sequence = sequence' := by
  have := (fromParts_low h).symm.trans (fromParts_low h')
  exact UInt32.toBitVec_inj.1 this

/-- A tag that leaves the sign bit clear and the sequence are the two halves of the number. -/
theorem fromParts_toInt {tag : Int64} (low : 1 ≤ tag.toInt) (high : tag.toInt < 2 ^ 31) (sequence : UInt32) :
    ∃ id, fromParts tag sequence = some id ∧ id.raw.toInt = tag.toInt * 2 ^ 32 + sequence.toNat := by
  have hlt := sequence.toNat_lt
  have htag := toInt_eq_toNat (n := tag) (by omega)
  have hnat : ((tag.toBitVec <<< SEQUENCE_BITS) ||| sequence.toBitVec.setWidth 64).toNat =
      tag.toBitVec.toNat * 2 ^ 32 + sequence.toNat := by
    have hsequence : sequence.toBitVec.toNat = sequence.toNat := rfl
    rw [BitVec.toNat_or, BitVec.toNat_shiftLeft, BitVec.toNat_setWidth, hsequence, SEQUENCE_BITS, Nat.shiftLeft_eq,
      Nat.mod_eq_of_lt (by omega), Nat.mod_eq_of_lt (by omega), ← Nat.shiftLeft_eq,
      ← Nat.shiftLeft_add_eq_or_of_lt hlt]
  have hint : (Int64.ofBitVec ((tag.toBitVec <<< SEQUENCE_BITS) ||| sequence.toBitVec.setWidth 64)).toInt =
      tag.toInt * 2 ^ 32 + sequence.toNat := by
    show ((tag.toBitVec <<< SEQUENCE_BITS) ||| sequence.toBitVec.setWidth 64).toInt = _
    rw [BitVec.toInt_eq_toNat_cond, hnat, htag, if_pos (by omega)]
    omega
  unfold fromParts
  dsimp only
  split
  · rename_i hzero
    rw [hzero] at hint
    have : (0 : Int64).toInt = 0 := rfl
    omega
  · exact ⟨_, rfl, hint⟩

/-- A positive number comes back from Java as the handle it was. -/
theorem new_raw {id : HandleId} (h : 0 < id.raw) : new id.raw = some id := by
  unfold new
  rw [dif_pos h]

end HandleId

/-- The bits above the sequence. -/
theorem toInt_shiftRight (n : Int64) : (n >>> 32).toInt = n.toInt / 2 ^ 32 := by
  have h : (n >>> 32).toInt = (n.toBitVec.sshiftRight 32).toInt := rfl
  rw [h, BitVec.toInt_sshiftRight, Int.shiftRight_eq_div_pow]
  rfl

theorem toInt_and_TAG_MASK (n : Int64) : 0 ≤ (n &&& TAG_MASK).toInt ∧ (n &&& TAG_MASK).toInt < 2 ^ 31 := by
  have h : (n &&& TAG_MASK).toInt = (n.toBitVec &&& TAG_MASK.toBitVec).toInt := rfl
  have hle : (n.toBitVec &&& TAG_MASK.toBitVec).toNat ≤ 2 ^ 31 - 1 := by
    rw [BitVec.toNat_and]
    exact Nat.and_le_right
  rw [h, BitVec.toInt_eq_toNat_cond, if_pos (by omega)]
  omega

/-- No process draws a tag of zero, or one that reaches the sign bit. -/
theorem processTag_range (finish : UInt64) : 1 ≤ (processTag finish).toInt ∧ (processTag finish).toInt < 2 ^ 31 := by
  have hmask := toInt_and_TAG_MASK finish.toInt64
  have hone : (1 : Int64).toInt = 1 := rfl
  have hmax : processTag finish = if finish.toInt64 &&& TAG_MASK ≤ 1 then 1 else finish.toInt64 &&& TAG_MASK := rfl
  rw [hmax]
  split
  · rw [hone]
    decide
  · rename_i hmore
    rw [Int64.le_iff_toInt_le, hone] at hmore
    omega

/-- Every tag in the range is one a process may draw. -/
theorem processTag_toUInt64 {tag : Int64} (low : 1 ≤ tag.toInt) (high : tag.toInt < 2 ^ 31) :
    processTag tag.toUInt64 = tag := by
  have hnat := toInt_eq_toNat (n := tag) (by omega)
  have hmask : tag &&& TAG_MASK = tag := by
    rw [← Int64.toBitVec_inj]
    apply BitVec.eq_of_toNat_eq
    have hand : (tag &&& TAG_MASK).toBitVec.toNat = tag.toBitVec.toNat &&& (2 ^ 31 - 1) := rfl
    rw [hand, Nat.and_two_pow_sub_one_eq_mod, Nat.mod_eq_of_lt (by omega)]
  have hmax : processTag tag.toUInt64 = if tag &&& TAG_MASK ≤ 1 then 1 else tag &&& TAG_MASK := rfl
  have hone : (1 : Int64).toInt = 1 := rfl
  rw [hmax, hmask]
  split
  · rename_i hle
    rw [Int64.le_iff_toInt_le, hone] at hle
    rw [← Int64.toInt_inj, hone]
    omega
  · rfl

/-- Where the next id comes from. -/
inductive Counter where
  /-- Nothing has been opened yet, so the process tag has not been drawn. -/
  | unstarted
  | next (tag : Int64) (sequence : UInt32)
  | spent
  deriving DecidableEq

namespace Counter

/-- `u32::checked_add(1)`. -/
def successor (sequence : UInt32) : Option UInt32 :=
  if sequence = 0xffffffff then none else some (sequence + 1)

/-- The next id, and the counter after it. -/
def compose (tag : Int64) (sequence : UInt32) : Option HandleId × Counter :=
  let id := HandleId.fromParts tag sequence
  match id, successor sequence with
  | some _, some sequence => (id, .next tag sequence)
  | _, _ => (id, .spent)

/-- Advances and returns the next id, or none once there are none left. -/
def takeNext (finish : UInt64) : Counter → Option HandleId × Counter
  | .unstarted => compose (processTag finish) 1
  | .next tag sequence => compose tag sequence
  | .spent => (none, .spent)

/-- The ids issued so far are those of the sequence numbers before the next one. -/
def Past (counter : Counter) (ids : List HandleId) : Prop :=
  match counter with
  | .unstarted => ids = []
  | .next tag sequence => ∀ id ∈ ids, ∃ earlier < sequence, HandleId.fromParts tag earlier = some id
  | .spent => True

/-- The counter only goes up. -/
theorem lt_successor {sequence next : UInt32} (h : successor sequence = some next) : sequence < next := by
  unfold successor at h
  split at h
  · cases h
  · rename_i hne
    cases h
    rw [UInt32.lt_iff_toNat_lt, UInt32.toNat_add]
    have hlt := sequence.toNat_lt
    have : sequence.toNat ≠ 0xffffffff := by
      intro heq
      exact hne (UInt32.toNat_inj.1 heq)
    simp
    omega

/-- A fresh id is past all that were given out. -/
theorem compose_past {tag : Int64} {sequence : UInt32} {ids : List HandleId} {id : HandleId} {counter : Counter}
    (h : compose tag sequence = (some id, counter))
    (past : ∀ id ∈ ids, ∃ earlier < sequence, HandleId.fromParts tag earlier = some id) :
    id ∉ ids ∧ counter.Past (ids ++ [id]) := by
  have composed : HandleId.fromParts tag sequence = some id := by
    unfold compose at h
    dsimp only at h
    split at h
    · exact (Prod.mk.inj h).1
    · exact (Prod.mk.inj h).1
  constructor
  · intro hmem
    obtain ⟨earlier, hlt, hearlier⟩ := past id hmem
    rw [HandleId.fromParts_inj hearlier composed] at hlt
    exact absurd hlt (UInt32.lt_irrefl _)
  · unfold compose at h
    dsimp only at h
    split at h
    · rename_i next _ hnext
      have hlt := lt_successor hnext
      rw [← (Prod.mk.inj h).2]
      intro id' hmem
      rcases List.mem_append.1 hmem with hmem | hmem
      · obtain ⟨earlier, hearlier, heq⟩ := past id' hmem
        exact ⟨earlier, UInt32.lt_trans hearlier hlt, heq⟩
      · rw [List.mem_singleton.1 hmem]
        exact ⟨sequence, hlt, composed⟩
    · rw [← (Prod.mk.inj h).2]
      trivial

/-- **An id is new when it is issued.** -/
theorem takeNext_past {finish : UInt64} {counter counter' : Counter} {ids : List HandleId} {id : HandleId}
    (h : counter.takeNext finish = (some id, counter')) (past : counter.Past ids) :
    id ∉ ids ∧ counter'.Past (ids ++ [id]) := by
  cases counter with
  | unstarted =>
    have hnil : ids = [] := past
    exact compose_past h (by simp [hnil])
  | next tag sequence => exact compose_past h past
  | spent => cases h

/-- A counter that is spent stays so. -/
theorem takeNext_none {finish : UInt64} {counter counter' : Counter} {ids : List HandleId}
    (h : counter.takeNext finish = (none, counter')) : counter'.Past ids := by
  have spent {tag : Int64} {sequence : UInt32} (h : compose tag sequence = (none, counter')) : counter' = .spent := by
    unfold compose at h
    dsimp only at h
    split at h
    · rename_i hid _
      rw [hid] at h
      cases h
    · exact (Prod.mk.inj h).2.symm
  have hspent : counter' = .spent := by
    cases counter with
    | unstarted => exact spent h
    | next tag sequence => exact spent h
    | spent => exact (Prod.mk.inj h).2.symm
  rw [hspent]
  trivial

end Counter

end EmbeddedMongo.Android
