import Mathlib

/-!
# Bytes

Little-endian integers of four bytes, text as UTF-8, and the first byte of a kind.
-/

namespace Fmt

/-! ## Integers -/

/-- The four bytes of a number, least significant first. -/
def le32 (n : Nat) : List UInt8 :=
  [.ofNat n, .ofNat (n / 2 ^ 8), .ofNat (n / 2 ^ 16), .ofNat (n / 2 ^ 24)]

/-- `u32::from_le_bytes` -/
def ofLE32 (a b c d : UInt8) : UInt32 :=
  .ofNat (a.toNat + 2 ^ 8 * b.toNat + 2 ^ 16 * c.toNat + 2 ^ 24 * d.toNat)

@[simp] theorem length_le32 (n : Nat) : (le32 n).length = 4 := rfl

/-- The value of four bytes, the lowest first. -/
theorem toNat_ofLE32 (a b c d : UInt8) :
    (ofLE32 a b c d).toNat = a.toNat + 2 ^ 8 * b.toNat + 2 ^ 16 * c.toNat + 2 ^ 24 * d.toNat := by
  have := a.toNat_lt
  have := b.toNat_lt
  have := c.toNat_lt
  have := d.toNat_lt
  rw [ofLE32, UInt32.toNat_ofNat']
  omega

theorem ofNat_eq {n : Nat} {a : UInt8} (h : n % 2 ^ 8 = a.toNat) : UInt8.ofNat n = a := by
  apply UInt8.toNat_inj.1
  rw [UInt8.toNat_ofNat']
  exact h

/-- Four bytes are the encoding of what they decode to. -/
theorem le32_ofLE32 (a b c d : UInt8) : le32 (ofLE32 a b c d).toNat = [a, b, c, d] := by
  have := a.toNat_lt
  have := b.toNat_lt
  have := c.toNat_lt
  have := d.toNat_lt
  rw [toNat_ofLE32]
  unfold le32
  rw [ofNat_eq (a := a) (by omega), ofNat_eq (a := b) (by omega), ofNat_eq (a := c) (by omega),
    ofNat_eq (a := d) (by omega)]

/-- A word is what its encoding decodes to. -/
theorem ofLE32_le32 (n : UInt32) :
    ofLE32 (.ofNat n.toNat) (.ofNat (n.toNat / 2 ^ 8)) (.ofNat (n.toNat / 2 ^ 16)) (.ofNat (n.toNat / 2 ^ 24)) = n := by
  have := n.toNat_lt
  apply UInt32.toNat_inj.1
  rw [toNat_ofLE32]
  simp only [UInt8.toNat_ofNat']
  omega

/-- The number in the four bytes at an offset, zero where there are none. -/
def wordAt (bytes : List UInt8) (offset : Nat) : UInt32 :=
  ofLE32 (bytes.getD offset 0) (bytes.getD (offset + 1) 0) (bytes.getD (offset + 2) 0) (bytes.getD (offset + 3) 0)

/-- A word that was written is read back where it was written. -/
theorem wordAt_le32 (before after : List UInt8) (n : UInt32) :
    wordAt (before ++ (le32 n.toNat ++ after)) before.length = n := by
  unfold wordAt
  have skip (k : Nat) : (before ++ (le32 n.toNat ++ after)).getD (before.length + k) 0 = (le32 n.toNat ++ after).getD k 0 := by
    rw [List.getD_eq_getElem?_getD, List.getElem?_append_right (Nat.le_add_right _ _), Nat.add_sub_cancel_left,
      List.getD_eq_getElem?_getD]
  have first := skip 0
  rw [Nat.add_zero] at first
  rw [first, skip 1, skip 2, skip 3]
  exact ofLE32_le32 n

/-- A word that is there does not depend on what follows. -/
theorem wordAt_append {bytes : List UInt8} {offset : Nat} (h : offset + 4 ≤ bytes.length) (after : List UInt8) :
    wordAt (bytes ++ after) offset = wordAt bytes offset := by
  have same {i : Nat} (hi : i < bytes.length) : (bytes ++ after).getD i 0 = bytes.getD i 0 := by
    rw [List.getD_eq_getElem?_getD, List.getElem?_append_left hi, List.getD_eq_getElem?_getD]
  unfold wordAt
  rw [same (by omega), same (by omega), same (by omega), same (by omega)]

/-- A word as a signed one. -/
theorem toInt_toInt32 (n : UInt32) :
    n.toInt32.toInt = if n.toNat < 2 ^ 31 then (n.toNat : Int) else n.toNat - 2 ^ 32 := by
  have h : n.toInt32.toInt = n.toBitVec.toInt := rfl
  rw [h, BitVec.toInt_eq_toNat_cond]
  have : n.toBitVec.toNat = n.toNat := rfl
  rw [this]
  split <;> split <;> omega

/-! ## Text -/

/-- `str::as_bytes` -/
def utf8 (s : String) : List UInt8 := s.toByteArray.data.toList

/-- `str::from_utf8` -/
def fromUtf8 (bytes : List UInt8) : Option String := String.fromUTF8? bytes.toByteArray

/-- Text comes back from its bytes. -/
theorem fromUtf8_utf8 (s : String) : fromUtf8 (utf8 s) = some s := by
  have same : (utf8 s).toByteArray = s.toByteArray := by
    apply ByteArray.ext
    rw [List.data_toByteArray, utf8, Array.toArray_toList]
  unfold fromUtf8 String.fromUTF8?
  rw [same, dif_pos s.isValidUTF8]
  rfl

/-- Bytes that are text come back from it. -/
theorem utf8_of_fromUtf8 {bytes : List UInt8} {s : String} (h : fromUtf8 bytes = some s) : utf8 s = bytes := by
  unfold fromUtf8 String.fromUTF8? at h
  split at h
  · cases h
    show bytes.toByteArray.data.toList = bytes
    rw [List.data_toByteArray]
  · cases h

theorem utf8_eq_flatMap (s : String) : utf8 s = s.toList.flatMap String.utf8EncodeChar := by
  rw [utf8, ← String.utf8Encode_toList, List.utf8Encode, List.data_toByteArray]

/-- A byte of a character is zero only in the character NUL. -/
theorem zero_mem_utf8EncodeChar {c : Char} (h : 0 ∈ String.utf8EncodeChar c) : c = '\x00' := by
  have nonzero {n : Nat} (h : 0 = UInt8.ofNat n) (low : n < 2 ^ 8) : n = 0 := by
    have := congrArg UInt8.toNat h
    rw [UInt8.toNat_ofNat', Nat.mod_eq_of_lt low] at this
    exact this.symm
  unfold String.utf8EncodeChar at h
  dsimp only at h
  split at h
  · have hval := nonzero (List.mem_singleton.1 h) (by omega)
    apply Char.ext
    exact UInt32.toNat_inj.1 hval
  · exfalso
    split at h
    · simp only [List.mem_cons, List.not_mem_nil, or_false] at h
      rcases h with h | h <;> have := nonzero h (by omega) <;> omega
    · split at h
      · simp only [List.mem_cons, List.not_mem_nil, or_false] at h
        rcases h with h | h | h <;> have := nonzero h (by omega) <;> omega
      · simp only [List.mem_cons, List.not_mem_nil, or_false] at h
        rcases h with h | h | h | h <;> have := nonzero h (by omega) <;> omega

/-- Text without a NUL has no zero byte. -/
theorem zero_notMem_utf8 {s : String} (h : '\x00' ∉ s.toList) : 0 ∉ utf8 s := by
  rw [utf8_eq_flatMap]
  intro hmem
  obtain ⟨c, hc, hzero⟩ := List.mem_flatMap.1 hmem
  exact h (zero_mem_utf8EncodeChar hzero ▸ hc)

/-- Text with a NUL has a zero byte. -/
theorem zero_mem_utf8 {s : String} (h : '\x00' ∈ s.toList) : 0 ∈ utf8 s := by
  rw [utf8_eq_flatMap]
  exact List.mem_flatMap.2 ⟨_, h, by decide⟩

/-! ## Positions -/

/-- The first hit is behind a front without one. -/
theorem findIdx?_append_cons {α : Type} {p : α → Bool} {front back : List α} {a : α}
    (hfront : ∀ b ∈ front, p b = false) (ha : p a = true) :
    (front ++ a :: back).findIdx? p = some front.length := by
  rw [List.findIdx?_append, List.findIdx?_eq_none_iff.2 (by simpa using hfront), List.findIdx?_cons, ha]
  simp

/-- A first hit splits the list there. -/
theorem exists_of_findIdx? {α : Type} {p : α → Bool} {l : List α} {n : Nat} (h : l.findIdx? p = some n) :
    ∃ front a back, l = front ++ a :: back ∧ front.length = n ∧ p a = true ∧ ∀ b ∈ front, p b = false := by
  induction l generalizing n with
  | nil => cases h
  | cons a l ih =>
    rw [List.findIdx?_cons] at h
    split at h
    · rename_i ha
      cases h
      exact ⟨[], a, l, rfl, rfl, ha, by simp⟩
    · rename_i ha
      obtain ⟨m, hm, rfl⟩ := Option.map_eq_some_iff.1 h
      obtain ⟨front, b, back, rfl, rfl, hb, hfront⟩ := ih hm
      refine ⟨a :: front, b, back, rfl, rfl, hb, ?_⟩
      exact List.forall_mem_cons.2 ⟨by simpa using ha, hfront⟩

end Fmt
