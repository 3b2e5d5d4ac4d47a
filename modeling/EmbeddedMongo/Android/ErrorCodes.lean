import EmbeddedMongo.Android.BridgeError

/-!
# The codes that reach Java

`as_java` of what the binding makes of a failure of the crate. MongoDB numbers its errors from one
upwards: a code is passed on where it is such a number, and is a negative of the binding's own in
every other case. A number is never cut down to fit.
-/

namespace EmbeddedMongo.Android

/-- The message of an error that has no name but a number: `Location`, the digits as far as they
go, then nothing or a colon. -/
def NamesLocation (text : String) (number : Nat) : Prop :=
  ∃ digits tail : List Char, text.toList = "Location".toList ++ digits ++ tail ∧ digits ≠ [] ∧
    (∀ c ∈ digits, '0' ≤ c ∧ c ≤ '9') ∧ (∀ c ∈ tail.head?, ¬ ('0' ≤ c ∧ c ≤ '9')) ∧
    Nat.ofDigitChars 10 digits 0 = number ∧ (tail = [] ∨ tail.head? = some ':')

theorem isDigit_iff {c : Char} : c.isDigit = true ↔ '0' ≤ c ∧ c ≤ '9' := by
  simp [Char.isDigit, Char.le_def]

theorem ne_underscore {c : Char} (h : c.isDigit = true) : c ≠ '_' := by
  rintro rfl
  exact absurd h (by decide)

/-- A scan that every digit takes on to the next has seen one at the end, if there is one. -/
theorem forIn_digits {digits : List Char} {body : Char → Option Bool × Bool → Id (ForInStep (Option Bool × Bool))}
    (next : ∀ c ∈ digits, ∀ seen, body c (none, seen) = .yield (none, true)) (seen : Bool) :
    forIn (m := Id) digits (none, seen) body = (none, seen || !digits.isEmpty) := by
  induction digits generalizing seen with
  | nil =>
    rw [List.isEmpty_nil, Bool.not_true, Bool.or_false]
    rfl
  | cons c digits ih =>
    obtain ⟨first, rest⟩ := List.forall_mem_cons.1 next
    rw [List.forIn_cons, first]
    exact (ih rest true).trans (by simp)

/-- Digits make a number unless there are none. -/
theorem isNat_ofList {digits : List Char} (h : ∀ c ∈ digits, c.isDigit = true) :
    (String.ofList digits).isNat = !digits.isEmpty := by
  unfold String.isNat String.Slice.isNat
  dsimp only
  rw [String.Slice.forIn_eq_forIn_toList, String.copy_toSlice, String.toList_ofList, forIn_digits]
  · rfl
  · intro c hc seen
    rw [if_neg (ne_underscore (h c hc)), if_pos (h c hc)]
    rfl

/-- The number they make. -/
theorem foldl_digits {digits : List Char} (h : ∀ c ∈ digits, c.isDigit = true) (start : Nat) :
    digits.foldl (fun n c => if c = '_' then n else n * 10 + (c.toNat - '0'.toNat)) start =
      Nat.ofDigitChars 10 digits start := by
  induction digits generalizing start with
  | nil => rfl
  | cons c digits ih =>
    obtain ⟨first, rest⟩ := List.forall_mem_cons.1 h
    rw [List.foldl_cons, if_neg (ne_underscore first), ih rest, Nat.mul_comm]
    rfl

/-- Nothing but digits is read as the number they spell, and no digit as none. -/
theorem toNat?_ofList {digits : List Char} (h : ∀ c ∈ digits, c.isDigit = true) :
    (String.ofList digits).toNat? = if digits = [] then none else some (Nat.ofDigitChars 10 digits 0) := by
  have hnat : (String.ofList digits).toSlice.isNat = !digits.isEmpty := isNat_ofList h
  unfold String.toNat? String.Slice.toNat?
  rw [hnat, String.Slice.foldl_eq_foldl_toList, String.copy_toSlice, String.toList_ofList, foldl_digits h]
  cases digits with
  | nil => rfl
  | cons c digits => rfl

theorem isDigit_of_mem_takeWhile {rest : List Char} {c : Char} (h : c ∈ rest.takeWhile Char.isDigit) : c.isDigit = true :=
  List.all_eq_true.1 List.all_takeWhile c h

/-- What is left of a number that Java can hold and MongoDB may have given. -/
theorem i32_filter_eq_some {n : Int} {code : Int32} :
    (i32 n).filter (fun code => code > 0) = some code ↔ 0 < n ∧ n ≤ 2 ^ 31 - 1 ∧ code.toInt = n := by
  have hmin : Int32.minValue.toInt = -2 ^ 31 := rfl
  have hmax : Int32.maxValue.toInt = 2 ^ 31 - 1 := rfl
  have hzero : (0 : Int32).toInt = 0 := rfl
  rw [Option.filter_eq_some_iff, decide_eq_true_eq, gt_iff_lt, Int32.lt_iff_toInt_lt, hzero]
  unfold i32
  rw [hmin, hmax]
  constructor
  · rintro ⟨hfits, hpositive⟩
    split at hfits
    · rename_i hrange
      cases hfits
      have hofInt : (Int32.ofInt n).toInt = n := Int32.toInt_ofInt_of_le hrange.1 (by omega)
      rw [hofInt] at hpositive
      exact ⟨hpositive, hrange.2, hofInt⟩
    · cases hfits
  · rintro ⟨hpositive, hhigh, rfl⟩
    rw [if_pos (by omega), Int32.ofInt_toInt]
    exact ⟨rfl, hpositive⟩

/-- `Location` and what follows it. -/
theorem locationCode_append (rest : List Char) :
    locationCode (String.ofList ("Location".toList ++ rest)) =
      if !(rest.dropWhile Char.isDigit).isEmpty && (rest.dropWhile Char.isDigit).head? != some ':' then none
      else
        match (String.ofList (rest.takeWhile Char.isDigit)).toNat? with
        | some n => (i32 n).filter fun code => code > 0
        | none => none := by
  unfold locationCode
  rw [String.toList_ofList]
  rfl

/-- A location is read off a message just where it names one that fits. -/
theorem locationCode_eq_some {text : String} {code : Int32} :
    locationCode text = some code ↔ ∃ number : Nat, NamesLocation text number ∧ 0 < number ∧ number ≤ 2 ^ 31 - 1 ∧
      code.toInt = number := by
  constructor
  · intro h
    unfold locationCode at h
    split at h
    · rename_i rest hrest
      dsimp only at h
      split at h
      · cases h
      · rename_i hends
        rw [toNat?_ofList fun c hc => isDigit_of_mem_takeWhile hc] at h
        by_cases hnone : rest.takeWhile Char.isDigit = []
        · rw [if_pos hnone] at h
          cases h
        · rw [if_neg hnone] at h
          obtain ⟨hpositive, hhigh, hcode⟩ := i32_filter_eq_some.1 h
          refine ⟨_, ⟨rest.takeWhile Char.isDigit, rest.dropWhile Char.isDigit, ?_, hnone, ?_, ?_, rfl, ?_⟩,
            by omega, by omega, hcode⟩
          · rw [hrest, List.append_assoc, List.takeWhile_append_dropWhile]
            rfl
          · intro c hc
            exact isDigit_iff.1 (isDigit_of_mem_takeWhile hc)
          · intro c hc hdigit
            have hnot := List.head?_dropWhile_not Char.isDigit rest
            rw [Option.mem_def.1 hc] at hnot
            simp [isDigit_iff.2 hdigit] at hnot
          · cases htail : rest.dropWhile Char.isDigit with
            | nil => exact .inl rfl
            | cons c tail =>
              right
              simpa [htail] using hends
    · cases h
  · rintro ⟨number, ⟨digits, tail, htext, hne, hdigits, hend, hnumber, htail⟩, hpositive, hhigh, hcode⟩
    have hall : ∀ c ∈ digits, c.isDigit = true := fun c hc => isDigit_iff.2 (hdigits c hc)
    have hstop : tail.takeWhile Char.isDigit = [] ∧ tail.dropWhile Char.isDigit = tail := by
      cases tail with
      | nil => exact ⟨rfl, rfl⟩
      | cons c tail =>
        have hnot : ¬ c.isDigit = true := fun hdigit => hend c rfl (isDigit_iff.1 hdigit)
        rw [List.takeWhile_cons_of_neg hnot, List.dropWhile_cons_of_neg hnot]
        exact ⟨rfl, rfl⟩
    have hlist : text = String.ofList ("Location".toList ++ (digits ++ tail)) := by
      rw [← List.append_assoc, ← htext, String.ofList_toList]
    rw [hlist, locationCode_append, List.takeWhile_append_of_pos hall, List.dropWhile_append_of_pos hall, hstop.1,
      hstop.2, List.append_nil, toNat?_ofList hall, if_neg hne, hnumber, if_neg ?_]
    · exact i32_filter_eq_some.2 ⟨by omega, by omega, hcode⟩
    · rcases htail with rfl | hcolon
      · simp
      · simp [hcolon]

/-- A code passed on, or the sentinel of an engine that named none. -/
theorem asJava_passed {p : Option Int32} (h : ∀ code, p = some code → 0 < code.toInt) :
    ((p.map ErrorCode.mongo).getD .native).asJava ≠ 0 ∧
    (∀ k : Int, 0 < k → (((p.map ErrorCode.mongo).getD .native).asJava.toInt = k ↔
      ∃ code, p = some code ∧ code.toInt = k)) ∧
    (¬ 0 < ((p.map ErrorCode.mongo).getD .native).asJava.toInt →
      ((p.map ErrorCode.mongo).getD .native).asJava = ErrorCode.native.asJava) := by
  cases p with
  | none =>
    refine ⟨by decide, ?_, fun _ => rfl⟩
    intro k hk
    have hnative : ErrorCode.native.asJava.toInt = -5 := rfl
    simp only [Option.map_none, Option.getD_none, hnative, reduceCtorEq, false_and, exists_false, iff_false]
    omega
  | some code =>
    have hpositive := h code rfl
    refine ⟨?_, ?_, fun hnot => absurd hpositive hnot⟩
    · intro hzero
      have hcode : code = 0 := hzero
      rw [hcode] at hpositive
      exact absurd hpositive (by decide)
    · intro k _
      simp [ErrorCode.asJava]

/-- The code of a failure, where there is one to pass on. -/
def passed : Error → Option Int32
  | .native text => locationCode text
  | .server code _ => (code.bind i32).filter fun code => code > 0
  | _ => none

/-- The code of a bridge error is the one that is passed on, or the native one. -/
theorem ofError_code (e : Error) : (BridgeError.ofError e).code = ((passed e).map ErrorCode.mongo).getD .native := by
  cases e with
  | server code message =>
    show serverCode code = (((code.bind i32).filter fun code => code > 0).map ErrorCode.mongo).getD .native
    unfold serverCode
    cases (code.bind i32).filter fun code => code > 0 with
    | none => rfl
    | some code => rfl
  | _ => rfl

/-- A code is passed on when it is positive, fits and is the server's own or named by the message. -/
theorem passed_eq_some {e : Error} {code : Int32} :
    passed e = some code ↔ 0 < code.toInt ∧ code.toInt ≤ 2 ^ 31 - 1 ∧
      ((∃ message, e = .server (some code.toInt) message) ∨
        ∃ text, e = .native text ∧ NamesLocation text code.toInt.toNat) := by
  cases e with
  | native text =>
    rw [passed, locationCode_eq_some]
    constructor
    · rintro ⟨number, hnames, hpositive, hhigh, hcode⟩
      refine ⟨by omega, by omega, .inr ⟨text, rfl, ?_⟩⟩
      rw [hcode, Int.toNat_natCast]
      exact hnames
    · rintro ⟨hpositive, hhigh, ⟨_, hserver⟩ | ⟨_, hnative, hnames⟩⟩
      · cases hserver
      · cases hnative
        exact ⟨_, hnames, by omega, by omega, by omega⟩
  | server code' message =>
    constructor
    · intro h
      cases code' with
      | none => cases h
      | some n =>
        obtain ⟨hpositive, hhigh, rfl⟩ := i32_filter_eq_some.1 h
        exact ⟨hpositive, hhigh, .inl ⟨message, rfl⟩⟩
    · rintro ⟨hpositive, hhigh, ⟨_, hserver⟩ | ⟨_, hnative, -⟩⟩
      · cases hserver
        exact i32_filter_eq_some.2 ⟨hpositive, hhigh, rfl⟩
      · cases hnative
  | _ => simp [passed]

/-- **Error codes never lie to Java**, for any message of the engine and any code of a reply: zero is
never one, a positive code is the one that was named, and any other is a sentinel. -/
theorem error_codes_never_lie (e : Error) :
    (BridgeError.ofError e).code.asJava ≠ 0 ∧
    (∀ k : Int, 0 < k → ((BridgeError.ofError e).code.asJava.toInt = k ↔ k ≤ 2 ^ 31 - 1 ∧
      ((∃ message, e = .server (some k) message) ∨ ∃ text, e = .native text ∧ NamesLocation text k.toNat))) ∧
    (¬ 0 < (BridgeError.ofError e).code.asJava.toInt →
      (BridgeError.ofError e).code.asJava ∈
        [ErrorCode.closedHandle, .invalidArgument, .panic, .jni, .native].map ErrorCode.asJava) := by
  obtain ⟨hzero, hcode, hsentinel⟩ := asJava_passed (p := passed e) fun code h => (passed_eq_some.1 h).1
  rw [ofError_code]
  refine ⟨hzero, ?_, ?_⟩
  · intro k hk
    rw [hcode k hk]
    constructor
    · rintro ⟨code, hpassed, rfl⟩
      exact (passed_eq_some.1 hpassed).2
    · rintro ⟨hhigh, hnamed⟩
      have hofInt : (Int32.ofInt k).toInt = k := Int32.toInt_ofInt_of_le (by omega) (by omega)
      refine ⟨.ofInt k, passed_eq_some.2 ?_, hofInt⟩
      rw [hofInt]
      exact ⟨hk, hhigh, hnamed⟩
  · intro hnot
    rw [hsentinel hnot]
    decide

end EmbeddedMongo.Android
