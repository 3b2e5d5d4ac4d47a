import EmbeddedMongo.Ffi.Client

/-!
# What outlives what

Every reference is accounted for: those to a `Runtime` are its client's and one in each
`SessionInner`, those to a `SessionInner` its session's and its killers'. A native object is then
open while somebody can still reach it, and is closed once when nobody can.
-/

namespace EmbeddedMongo.Ffi

open Conc

/-! ## Who holds what -/

namespace Party

/-- The `Runtime` it has a reference to: its own, or the one the `SessionInner` in its hands had. -/
def runtimeRef : Party → Option Nat
  | .client r | .dropping (.runtime r) _ | .dropping (.unwrap r) _ | .dropping (.session _ r) _ => some r
  | _ => none

/-- The engine handle it has taken out of its `Arc`. -/
def looseRuntime : Party → Option Nat
  | .dropping (.mongo r) _ | .dropping (.close r) _ => some r
  | _ => none

/-- The session it holds a share in. -/
def innerRef : Party → Option Nat
  | .session x | .killer x | .dropping (.inner x) _ => some x
  | _ => none

/-- The native session it has outside an `Arc`. -/
def looseInner : Party → Option Nat
  | .opened _ x | .dropping (.session x _) _ => some x
  | _ => none

/-- It can be borrowed. -/
def isValue : Party → Bool
  | .client _ | .session _ | .killer _ => true
  | _ => false

end Party

/-- The runtime a session holds a share in until it is closed. -/
def SessionInner.runtimeRef (inner : SessionInner) : Option Nat :=
  if inner.owned.arc.full = true then some inner.runtime else none

namespace State

/-- The shares in a runtime. -/
def runtimeRefs (r : Nat) (s : State) : Nat :=
  pointing Party.runtimeRef r s.parties + pointing SessionInner.runtimeRef r s.inners

/-- The pointers to a runtime that are in no share. -/
def runtimeLoose (r : Nat) (s : State) : Nat := pointing Party.looseRuntime r s.parties

def innerRefs (x : Nat) (s : State) : Nat := pointing Party.innerRef x s.parties

def innerLoose (x : Nat) (s : State) : Nat := pointing Party.looseInner x s.parties

/-- What a party names is there, and what it borrows is still a value. -/
def Fits (s : State) : Party → Prop
  | .client r | .dropping (.runtime r) _ | .dropping (.mongo r) _ | .dropping (.unwrap r) _ | .dropping (.close r) _ =>
    r < s.runtimes.length
  | .session x | .killer x | .dropping (.inner x) _ => x < s.inners.length
  | .dropping (.session x r) _ => ∃ inner, s.inners[x]? = some inner ∧ inner.runtime = r ∧ r < s.runtimes.length
  | .opening c => ∃ r, s.parties[c]? = some (.client r)
  | .opened c x => ∃ inner, s.inners[x]? = some inner ∧ s.parties[c]? = some (.client inner.runtime)
  | .running h => ∃ x, s.parties[h]? = some (.session x)
  | .killing h => ∃ x, s.parties[h]? = some (.killer x)
  | .closed _ | .gone => True

/-- Every native object is accounted for by those who refer to it. -/
structure Sound (s : State) : Prop where
  runtimes : ∀ (r : Nat) (o : Owned), s.runtimes[r]? = some o → o.Accounted (s.runtimeRefs r) (s.runtimeLoose r)
  inners : ∀ (x : Nat) (inner : SessionInner), s.inners[x]? = some inner →
    inner.owned.Accounted (s.innerRefs x) (s.innerLoose x)
  shares : ∀ (x : Nat) (inner : SessionInner), s.inners[x]? = some inner → inner.runtime < s.runtimes.length
  parties : ∀ (i : Nat) (p : Party), s.parties[i]? = some p → s.Fits p

end State

/-! ## A party that fits goes on fitting -/

/-- A value that fits still fits when there is more. -/
theorem State.Fits.mono {s s' : State} {p : Party} (h : s.Fits p) (runtimes : s.runtimes.length ≤ s'.runtimes.length)
    (inners : ∀ (x : Nat) (inner : SessionInner), s.inners[x]? = some inner →
      ∃ inner', s'.inners[x]? = some inner' ∧ inner'.runtime = inner.runtime)
    (borrowed : ∀ c, p.borrows = some c → s'.parties[c]? = s.parties[c]?) : s'.Fits p := by
  have length : ∀ {x : Nat}, x < s.inners.length → x < s'.inners.length := by
    intro x hx
    obtain ⟨inner', hinner', -⟩ := inners x _ (List.getElem?_eq_getElem hx)
    exact (List.getElem?_eq_some_iff.1 hinner').1
  cases p with
  | client r => exact Nat.lt_of_lt_of_le h runtimes
  | session x | killer x => exact length h
  | opening c =>
    obtain ⟨r, hr⟩ := h
    exact ⟨r, (borrowed c rfl).trans hr⟩
  | opened c x =>
    obtain ⟨inner, hx, hc⟩ := h
    obtain ⟨inner', hx', hruntime⟩ := inners x inner hx
    exact ⟨inner', hx', by rw [borrowed c rfl, hc, hruntime]⟩
  | running k | killing k =>
    obtain ⟨x, hx⟩ := h
    exact ⟨x, (borrowed k rfl).trans hx⟩
  | closed _ | gone => trivial
  | dropping drop closing =>
    cases drop with
    | inner x => exact length h
    | session x r =>
      obtain ⟨inner, hx, hruntime, hr⟩ := h
      obtain ⟨inner', hx', hruntime'⟩ := inners x inner hx
      exact ⟨inner', hx', hruntime'.trans hruntime, Nat.lt_of_lt_of_le hr runtimes⟩
    | runtime r | mongo r | unwrap r | close r => exact Nat.lt_of_lt_of_le h runtimes

theorem Party.dropped_holds_nothing (closing eager : Bool) :
    (Party.dropped closing eager).runtimeRef = none ∧ (Party.dropped closing eager).looseRuntime = none ∧
      (Party.dropped closing eager).innerRef = none ∧ (Party.dropped closing eager).looseInner = none := by
  cases closing <;> exact ⟨rfl, rfl, rfl, rfl⟩

theorem State.fits_dropped (s : State) (closing eager : Bool) : s.Fits (.dropped closing eager) := by
  cases closing <;> trivial

namespace State.Sound

variable {s : State} {i : Nat} {p : Party}

/-- What a party borrows is a value. -/
theorem lends (h : s.Sound) (hi : s.parties[i]? = some p) {c : Nat} (hc : p.borrows = some c) :
    ∃ value, s.parties[c]? = some value ∧ value.isValue = true := by
  have hfits := h.parties i p hi
  cases p with
  | opening d =>
    obtain rfl := Option.some.inj hc
    obtain ⟨r, hr⟩ := hfits
    exact ⟨_, hr, rfl⟩
  | opened d x =>
    obtain rfl := Option.some.inj hc
    obtain ⟨inner, -, hr⟩ := hfits
    exact ⟨_, hr, rfl⟩
  | running k | killing k =>
    obtain rfl := Option.some.inj hc
    obtain ⟨x, hx⟩ := hfits
    exact ⟨_, hx, rfl⟩
  | _ => cases hc

/-- What is not a value is not borrowed. -/
theorem unborrowed (h : s.Sound) (hi : s.parties[i]? = some p) (hp : p.isValue = false) : ¬s.borrowed i := by
  rintro ⟨q, hq, hborrows⟩
  obtain ⟨j, hj⟩ := List.getElem?_of_mem hq
  obtain ⟨value, hvalue, hisValue⟩ := h.lends hj hborrows
  rw [hi] at hvalue
  cases hvalue
  rw [hp] at hisValue
  cases hisValue

/-- The parties after one that nobody borrows has moved. -/
theorem fits_set {s' : State} {p' : Party} (h : s.Sound) (parties : s'.parties = s.parties.set i p')
    (runtimes : s.runtimes.length ≤ s'.runtimes.length)
    (inners : ∀ (x : Nat) (inner : SessionInner), s.inners[x]? = some inner →
      ∃ inner', s'.inners[x]? = some inner' ∧ inner'.runtime = inner.runtime)
    (free : ¬s.borrowed i) (fits : s'.Fits p') : ∀ (j : Nat) (p : Party), s'.parties[j]? = some p → s'.Fits p := by
  rw [parties]
  refine forall_getElem?_set (p := fun _ q => s'.Fits q) (fun j q hj _ => ?_) fits
  refine (h.parties j q hj).mono runtimes inners fun c hc => ?_
  have hci : i ≠ c := by
    rintro rfl
    exact free ⟨q, List.mem_of_getElem? hj, hc⟩
  rw [parties, List.getElem?_set_ne hci]

/-- The parties after one has joined. -/
theorem fits_add {s' : State} {p' : Party} (h : s.Sound) (parties : s'.parties = s.parties ++ [p'])
    (runtimes : s.runtimes.length ≤ s'.runtimes.length)
    (inners : ∀ (x : Nat) (inner : SessionInner), s.inners[x]? = some inner →
      ∃ inner', s'.inners[x]? = some inner' ∧ inner'.runtime = inner.runtime)
    (fits : s'.Fits p') : ∀ (j : Nat) (p : Party), s'.parties[j]? = some p → s'.Fits p := by
  have stays : ∀ (j : Nat) (q : Party), s.parties[j]? = some q → s'.Fits q := by
    intro j q hj
    refine (h.parties j q hj).mono runtimes inners fun c hc => ?_
    obtain ⟨value, hvalue, -⟩ := h.lends hj hc
    rw [parties, hvalue]
    exact getElem?_append_of_eq_some hvalue
  rw [parties]
  exact forall_getElem?_append stays fits

/-! ## Moves that leave the accounts alone -/

/-- A party that nobody borrows moves, and holds what it held. -/
theorem rename {p' : Party} (h : s.Sound) (hi : s.parties[i]? = some p) (free : ¬s.borrowed i)
    (runtimeRef : p'.runtimeRef = p.runtimeRef) (looseRuntime : p'.looseRuntime = p.looseRuntime)
    (innerRef : p'.innerRef = p.innerRef) (looseInner : p'.looseInner = p.looseInner) (fits : (s.set i p').Fits p') :
    (s.set i p').Sound where
  runtimes r o hr := by
    unfold State.runtimeRefs State.runtimeLoose
    rw [State.set, pointing_set_same hi p' runtimeRef, pointing_set_same hi p' looseRuntime]
    exact h.runtimes r o hr
  inners x inner hx := by
    unfold State.innerRefs State.innerLoose
    rw [State.set, pointing_set_same hi p' innerRef, pointing_set_same hi p' looseInner]
    exact h.inners x inner hx
  shares := h.shares
  parties := h.fits_set rfl (Nat.le_refl _) (fun _ inner hx => ⟨inner, hx, rfl⟩) free fits

/-- A call begins. -/
theorem join {p' : Party} (h : s.Sound) (runtimeRef : p'.runtimeRef = none) (looseRuntime : p'.looseRuntime = none)
    (innerRef : p'.innerRef = none) (looseInner : p'.looseInner = none) (fits : (s.add p').Fits p') :
    (s.add p').Sound where
  runtimes r o hr := by
    unfold State.runtimeRefs State.runtimeLoose
    simp only [State.add, pointing_append, runtimeRef, looseRuntime, reduceCtorEq, if_false, Nat.add_zero]
    exact h.runtimes r o hr
  inners x inner hx := by
    unfold State.innerRefs State.innerLoose
    simp only [State.add, pointing_append, innerRef, looseInner, reduceCtorEq, if_false, Nat.add_zero]
    exact h.inners x inner hx
  shares := h.shares
  parties := h.fits_add rfl (Nat.le_refl _) (fun _ inner hx => ⟨inner, hx, rfl⟩) fits

/-! ## References to a runtime -/

/-- A step on one runtime, whose accounts move with it while the others' stay. -/
theorem setRuntime {p' : Party} {r : Nat} {o' : Owned} (h : s.Sound) (hi : s.parties[i]? = some p)
    (hp : p.isValue = false) (innerRef : p'.innerRef = p.innerRef) (looseInner : p'.looseInner = p.looseInner)
    (elsewhere : ∀ r', r' ≠ r → (p'.runtimeRef = some r' ↔ p.runtimeRef = some r') ∧
      (p'.looseRuntime = some r' ↔ p.looseRuntime = some r'))
    (accounted : o'.Accounted (((s.setRuntime r o').set i p').runtimeRefs r) (((s.setRuntime r o').set i p').runtimeLoose r))
    (fits : ((s.setRuntime r o').set i p').Fits p') : ((s.setRuntime r o').set i p').Sound where
  runtimes := by
    apply forall_getElem?_set
    · intro r' o hr' hne
      have hrefs := pointing_set hi Party.runtimeRef r' p'
      have hloose := pointing_set hi Party.looseRuntime r' p'
      obtain ⟨hiff, hiff'⟩ := elsewhere r' hne
      simp only [hiff, Nat.add_right_cancel_iff] at hrefs
      simp only [hiff', Nat.add_right_cancel_iff] at hloose
      have := h.runtimes r' o hr'
      unfold State.runtimeRefs State.runtimeLoose at this ⊢
      simp only [State.set, State.setRuntime]
      rw [hrefs, hloose]
      exact this
    · exact accounted
  inners x inner hx := by
    unfold State.innerRefs State.innerLoose
    rw [State.set, State.setRuntime, pointing_set_same hi p' innerRef, pointing_set_same hi p' looseInner]
    exact h.inners x inner hx
  shares x inner hx := by
    show inner.runtime < (s.runtimes.set r o').length
    rw [List.length_set]
    exact h.shares x inner hx
  parties := by
    apply h.fits_set rfl
    · simp [State.set, State.setRuntime]
    · intro x inner hx
      exact ⟨inner, hx, rfl⟩
    · exact h.unborrowed hi hp
    · exact fits

/-- A party gives up its reference, and has the handle loose if it was the last. -/
theorem releaseRuntime {p' : Party} {r : Nat} {o : Owned} (h : s.Sound) (hi : s.parties[i]? = some p)
    (hp : p.isValue = false) (hr : s.runtimes[r]? = some o) (inner : p.innerRef = none ∧ p.looseInner = none)
    (inner' : p'.innerRef = none ∧ p'.looseInner = none) (runtime : p.runtimeRef = some r ∧ p.looseRuntime = none)
    (runtimeRef : p'.runtimeRef = none) (looseRuntime : p'.looseRuntime = if o.arc.isLast = true then some r else none)
    (fits : ((s.setRuntime r o.release).set i p').Fits p') : ((s.setRuntime r o.release).set i p').Sound := by
  have hrefs := pointing_set hi Party.runtimeRef r p'
  have hloose := pointing_set hi Party.looseRuntime r p'
  have hpos : 0 < s.runtimeRefs r := Nat.lt_of_lt_of_le (pointing_pos hi runtime.1) (Nat.le_add_right _ _)
  rw [runtime.1, runtimeRef] at hrefs
  rw [runtime.2, looseRuntime] at hloose
  simp only [if_true, reduceCtorEq, if_false, Nat.add_zero] at hrefs hloose
  apply h.setRuntime hi hp (inner'.1.trans inner.1.symm) (inner'.2.trans inner.2.symm)
  · intro r' hne
    rw [runtime.1, runtime.2, runtimeRef, looseRuntime]
    constructor
    · simp [Ne.symm hne]
    · split <;> simp [Ne.symm hne]
  · have := (h.runtimes r o hr).release hpos
    unfold State.runtimeRefs State.runtimeLoose at this ⊢
    simp only [State.set, State.setRuntime]
    rw [hloose]
    convert this using 1
    · omega
    · split <;> simp
  · exact fits

/-- A party closes the handle it has loose. -/
theorem closeRuntime {p' : Party} {r : Nat} {o : Owned} (h : s.Sound) (hi : s.parties[i]? = some p)
    (hp : p.isValue = false) (hr : s.runtimes[r]? = some o) (inner : p.innerRef = none ∧ p.looseInner = none)
    (inner' : p'.innerRef = none ∧ p'.looseInner = none) (runtime : p.runtimeRef = none ∧ p.looseRuntime = some r)
    (runtime' : p'.runtimeRef = none ∧ p'.looseRuntime = none)
    (fits : ((s.setRuntime r o.close).set i p').Fits p') : ((s.setRuntime r o.close).set i p').Sound := by
  have hrefs := pointing_set hi Party.runtimeRef r p'
  have hloose := pointing_set hi Party.looseRuntime r p'
  rw [runtime.1, runtime'.1] at hrefs
  rw [runtime.2, runtime'.2] at hloose
  simp only [if_true, reduceCtorEq, if_false, Nat.add_zero] at hrefs hloose
  apply h.setRuntime hi hp (inner'.1.trans inner.1.symm) (inner'.2.trans inner.2.symm)
  · intro r' hne
    rw [runtime.1, runtime.2, runtime'.1, runtime'.2]
    exact ⟨Iff.rfl, by simp [Ne.symm hne]⟩
  · apply Owned.Accounted.close
    have := h.runtimes r o hr
    unfold State.runtimeRefs State.runtimeLoose at this ⊢
    simp only [State.set, State.setRuntime]
    rw [hrefs, hloose]
    exact this
  · exact fits

/-! ## References to a session -/

/-- A `SessionInner` keeps the runtime it has a share in. -/
theorem setInner_runtime {x : Nat} {inner : SessionInner} (o : Owned) (hx : s.inners[x]? = some inner) (x' : Nat)
    (inner' : SessionInner) (hx' : s.inners[x']? = some inner') :
    ∃ inner'', (s.setInner x o inner).inners[x']? = some inner'' ∧ inner''.runtime = inner'.runtime := by
  show ∃ inner'', (s.inners.set x _)[x']? = some inner'' ∧ _
  by_cases hxx : x = x'
  · subst hxx
    rw [hx] at hx'
    cases hx'
    rw [List.getElem?_set_self (List.getElem?_eq_some_iff.1 hx).1]
    exact ⟨_, rfl, rfl⟩
  · rw [List.getElem?_set_ne hxx]
    exact ⟨inner', hx', rfl⟩

/-- A step on one `SessionInner` in which the share it has in its runtime stays with it or goes to
the party. -/
theorem setInner {p' : Party} {x : Nat} {inner : SessionInner} {o' : Owned} (h : s.Sound) (hi : s.parties[i]? = some p)
    (hp : p.isValue = false) (hx : s.inners[x]? = some inner) (looseRuntime : p'.looseRuntime = p.looseRuntime)
    (balance : ∀ r, (if p'.runtimeRef = some r then 1 else 0) +
        (if SessionInner.runtimeRef { inner with owned := o' } = some r then 1 else 0) =
      (if p.runtimeRef = some r then 1 else 0) + if inner.runtimeRef = some r then 1 else 0)
    (elsewhere : ∀ x', x' ≠ x → (p'.innerRef = some x' ↔ p.innerRef = some x') ∧
      (p'.looseInner = some x' ↔ p.looseInner = some x'))
    (accounted : o'.Accounted (((s.setInner x o' inner).set i p').innerRefs x) (((s.setInner x o' inner).set i p').innerLoose x))
    (fits : ((s.setInner x o' inner).set i p').Fits p') : ((s.setInner x o' inner).set i p').Sound where
  runtimes r o hr := by
    have hrefs := pointing_set hi Party.runtimeRef r p'
    have hrefs' := pointing_set hx SessionInner.runtimeRef r { inner with owned := o' }
    have := h.runtimes r o hr
    have hbalance := balance r
    unfold State.runtimeRefs State.runtimeLoose at this ⊢
    simp only [State.set, State.setInner]
    rw [pointing_set_same hi p' looseRuntime]
    convert this using 1
    omega
  inners := by
    apply forall_getElem?_set
    · intro x' inner' hx' hne
      have hrefs := pointing_set hi Party.innerRef x' p'
      have hloose := pointing_set hi Party.looseInner x' p'
      obtain ⟨hiff, hiff'⟩ := elsewhere x' hne
      simp only [hiff, Nat.add_right_cancel_iff] at hrefs
      simp only [hiff', Nat.add_right_cancel_iff] at hloose
      have := h.inners x' inner' hx'
      unfold State.innerRefs State.innerLoose at this ⊢
      simp only [State.set, State.setInner]
      rw [hrefs, hloose]
      exact this
    · exact accounted
  shares := by
    apply forall_getElem?_set
    · intro x' inner' hx' _
      exact h.shares x' inner' hx'
    · exact h.shares x inner hx
  parties := by
    apply h.fits_set rfl
    · exact Nat.le_refl _
    · exact setInner_runtime _ hx
    · exact h.unborrowed hi hp
    · exact fits

/-- A session or a killer gives up its reference. With the last one it has the native session loose,
and the share in the runtime that was beside it. -/
theorem releaseInner {x : Nat} {closing : Bool} {inner : SessionInner} (h : s.Sound)
    (hi : s.parties[i]? = some (.dropping (.inner x) closing)) (hx : s.inners[x]? = some inner) :
    ((s.setInner x inner.owned.release inner).set i
      (if inner.owned.arc.isLast = true then .dropping (.session x inner.runtime) closing else .dropped closing false)).Sound := by
  have haccounted := h.inners x inner hx
  have hpos : 0 < s.innerRefs x := pointing_pos hi rfl
  have hfull : inner.owned.arc.full = true := by
    rw [haccounted.held.full]
    simp [hpos]
  have hrefs := fun p' => pointing_set hi Party.innerRef x p'
  have hloose := fun p' => pointing_set hi Party.looseInner x p'
  have hreleased := haccounted.release hpos
  cases hlast : inner.owned.arc.isLast with
  | true =>
    rw [if_pos rfl]
    rw [hlast, if_pos rfl] at hreleased
    apply h.setInner hi rfl hx
    · rfl
    · intro r
      simp [Party.runtimeRef, SessionInner.runtimeRef, Owned.release, Arc.release, hfull, hlast]
    · intro x' hne
      simp [Party.innerRef, Party.looseInner, Ne.symm hne]
    · have hrefs := hrefs (.dropping (.session x inner.runtime) closing)
      have hloose := hloose (.dropping (.session x inner.runtime) closing)
      simp only [Party.innerRef, if_true, reduceCtorEq, if_false, Nat.add_zero] at hrefs
      simp only [Party.looseInner, if_true, reduceCtorEq, if_false, Nat.add_zero] at hloose
      unfold State.innerRefs State.innerLoose at hreleased ⊢
      simp only [State.set, State.setInner]
      rw [hloose]
      convert hreleased using 1
      omega
    · obtain ⟨inner', hx', hruntime⟩ := setInner_runtime inner.owned.release hx x inner hx
      exact ⟨inner', hx', hruntime, h.shares x inner hx⟩
  | false =>
    rw [if_neg Bool.false_ne_true]
    rw [hlast, if_neg Bool.false_ne_true, Nat.add_zero] at hreleased
    obtain ⟨hruntimeRef, hlooseRuntime, hinnerRef, hlooseInner⟩ := Party.dropped_holds_nothing closing false
    apply h.setInner hi rfl hx hlooseRuntime
    · intro r
      rw [hruntimeRef]
      simp [Party.runtimeRef, SessionInner.runtimeRef, Owned.release, Arc.release, hfull, hlast]
    · intro x' hne
      rw [hinnerRef, hlooseInner]
      simp [Party.innerRef, Party.looseInner, Ne.symm hne]
    · have hrefs := hrefs (.dropped closing false)
      have hloose := hloose (.dropped closing false)
      rw [hinnerRef] at hrefs
      rw [hlooseInner] at hloose
      simp only [Party.innerRef, if_true, reduceCtorEq, if_false, Nat.add_zero] at hrefs
      simp only [Party.looseInner, reduceCtorEq, if_false, Nat.add_zero] at hloose
      unfold State.innerRefs State.innerLoose at hreleased ⊢
      simp only [State.set, State.setInner]
      rw [hloose]
      convert hreleased using 1
      omega
    · exact State.fits_dropped _ closing false

/-- A session is closed with the last share in it. -/
theorem destroySession {x r : Nat} {closing : Bool} {inner : SessionInner} (h : s.Sound)
    (hi : s.parties[i]? = some (.dropping (.session x r) closing)) (hx : s.inners[x]? = some inner) :
    ((s.setInner x inner.owned.close inner).set i (.dropping (.runtime r) closing)).Sound := by
  have haccounted := h.inners x inner hx
  have hrefs := pointing_set hi Party.innerRef x (.dropping (.runtime r) closing)
  have hloose := pointing_set hi Party.looseInner x (.dropping (.runtime r) closing)
  simp only [Party.innerRef, reduceCtorEq, if_false, Nat.add_zero] at hrefs
  simp only [Party.looseInner, if_true, reduceCtorEq, if_false, Nat.add_zero] at hloose
  apply h.setInner hi rfl hx
  · rfl
  · intro r'
    rfl
  · intro x' hne
    simp [Party.innerRef, Party.looseInner, Ne.symm hne]
  · apply Owned.Accounted.close
    unfold State.innerRefs State.innerLoose at haccounted ⊢
    simp only [State.set, State.setInner]
    rw [hrefs, hloose]
    exact haccounted
  · obtain ⟨_, -, -, hr⟩ := h.parties i _ hi
    exact hr

/-! ## What is new -/

/-- Nobody points to a runtime there is not. -/
theorem unnamedRuntime (h : s.Sound) :
    s.runtimeRefs s.runtimes.length = 0 ∧ s.runtimeLoose s.runtimes.length = 0 := by
  have hparties : ∀ p ∈ s.parties, p.runtimeRef ≠ some s.runtimes.length ∧ p.looseRuntime ≠ some s.runtimes.length := by
    intro p hp
    obtain ⟨i, hi⟩ := List.getElem?_of_mem hp
    have hfits := h.parties i p hi
    cases p with
    | client r =>
      exact ⟨fun heq => Nat.ne_of_lt hfits (Option.some.inj heq), by simp [Party.looseRuntime]⟩
    | dropping drop closing =>
      cases drop with
      | inner x => exact ⟨by simp [Party.runtimeRef], by simp [Party.looseRuntime]⟩
      | session x r =>
        obtain ⟨_, -, -, hr⟩ := hfits
        exact ⟨fun heq => Nat.ne_of_lt hr (Option.some.inj heq), by simp [Party.looseRuntime]⟩
      | runtime r | unwrap r =>
        exact ⟨fun heq => Nat.ne_of_lt hfits (Option.some.inj heq), by simp [Party.looseRuntime]⟩
      | mongo r | close r =>
        exact ⟨by simp [Party.runtimeRef], fun heq => Nat.ne_of_lt hfits (Option.some.inj heq)⟩
    | _ => exact ⟨by simp [Party.runtimeRef], by simp [Party.looseRuntime]⟩
  have hinners : ∀ inner ∈ s.inners, inner.runtimeRef ≠ some s.runtimes.length := by
    intro inner hinner heq
    obtain ⟨x, hx⟩ := List.getElem?_of_mem hinner
    unfold SessionInner.runtimeRef at heq
    split at heq
    · exact Nat.ne_of_lt (h.shares x inner hx) (Option.some.inj heq)
    · cases heq
  refine ⟨?_, pointing_eq_zero fun p hp => (hparties p hp).2⟩
  rw [State.runtimeRefs, pointing_eq_zero fun p hp => (hparties p hp).1, pointing_eq_zero hinners]

/-- Nobody points to a session there is not. -/
theorem unnamedInner (h : s.Sound) : s.innerRefs s.inners.length = 0 ∧ s.innerLoose s.inners.length = 0 := by
  have hparties : ∀ p ∈ s.parties, p.innerRef ≠ some s.inners.length ∧ p.looseInner ≠ some s.inners.length := by
    intro p hp
    obtain ⟨i, hi⟩ := List.getElem?_of_mem hp
    have hfits := h.parties i p hi
    cases p with
    | session x | killer x =>
      exact ⟨fun heq => Nat.ne_of_lt hfits (Option.some.inj heq), by simp [Party.looseInner]⟩
    | opened c x =>
      obtain ⟨inner, hx, -⟩ := hfits
      have hlt := (List.getElem?_eq_some_iff.1 hx).1
      exact ⟨by simp [Party.innerRef], fun heq => Nat.ne_of_lt hlt (Option.some.inj heq)⟩
    | dropping drop closing =>
      cases drop with
      | inner x =>
        exact ⟨fun heq => Nat.ne_of_lt hfits (Option.some.inj heq), by simp [Party.looseInner]⟩
      | session x r =>
        obtain ⟨inner, hx, -⟩ := hfits
        have hlt := (List.getElem?_eq_some_iff.1 hx).1
        exact ⟨by simp [Party.innerRef], fun heq => Nat.ne_of_lt hlt (Option.some.inj heq)⟩
      | _ => exact ⟨by simp [Party.innerRef], by simp [Party.looseInner]⟩
    | _ => exact ⟨by simp [Party.innerRef], by simp [Party.looseInner]⟩
  exact ⟨pointing_eq_zero fun p hp => (hparties p hp).1, pointing_eq_zero fun p hp => (hparties p hp).2⟩

/-- A client is opened. -/
theorem openClient (h : s.Sound) :
    State.Sound { s with runtimes := s.runtimes ++ [⟨.new, .opened⟩], parties := s.parties ++ [.client s.runtimes.length] } where
  runtimes := by
    apply forall_getElem?_append
    · intro r o hr
      have hne : s.runtimes.length ≠ r := Nat.ne_of_gt (List.getElem?_eq_some_iff.1 hr).1
      have := h.runtimes r o hr
      unfold State.runtimeRefs State.runtimeLoose at this ⊢
      simpa [pointing_append, Party.runtimeRef, Party.looseRuntime, hne] using this
    · obtain ⟨hrefs, hloose⟩ := h.unnamedRuntime
      unfold State.runtimeRefs at hrefs ⊢
      unfold State.runtimeLoose at hloose ⊢
      have hparties : pointing Party.runtimeRef s.runtimes.length s.parties = 0 := by omega
      have hinners : pointing SessionInner.runtimeRef s.runtimes.length s.inners = 0 := by omega
      simp only [pointing_append, hparties, hinners, hloose, Party.runtimeRef, Party.looseRuntime, if_true, reduceCtorEq,
        if_false]
      exact Owned.accounted_new
  inners x inner hx := by
    have := h.inners x inner hx
    unfold State.innerRefs State.innerLoose at this ⊢
    simpa [pointing_append, Party.innerRef, Party.looseInner] using this
  shares x inner hx := by
    have := h.shares x inner hx
    simp only [List.length_append, List.length_singleton]
    omega
  parties := by
    apply h.fits_add rfl
    · simp
    · intro x inner hx
      exact ⟨inner, hx, rfl⟩
    · simp [State.Fits]

/-- A session is opened on a client. -/
theorem openedSession {c r : Nat} (h : s.Sound) (hi : s.parties[i]? = some (.opening c))
    (hc : s.parties[c]? = some (.client r)) :
    State.Sound { s with
      inners := s.inners ++ [⟨⟨.unmade, .opened⟩, r⟩]
      parties := s.parties.set i (.opened c s.inners.length) } where
  runtimes r' o hr := by
    have := h.runtimes r' o hr
    unfold State.runtimeRefs State.runtimeLoose at this ⊢
    simp only [pointing_append]
    rw [pointing_set_same hi (.opened c _) rfl, pointing_set_same hi (.opened c _) rfl]
    simpa [SessionInner.runtimeRef, Arc.unmade] using this
  inners := by
    obtain ⟨hrefs, hloose⟩ := h.unnamedInner
    have hset := fun x => pointing_set hi Party.looseInner x (.opened c s.inners.length)
    simp only [Party.looseInner, Option.some.injEq, reduceCtorEq, if_false, Nat.add_zero] at hset
    apply forall_getElem?_append
    · intro x inner hx
      have hne : s.inners.length ≠ x := Nat.ne_of_gt (List.getElem?_eq_some_iff.1 hx).1
      have := h.inners x inner hx
      unfold State.innerRefs State.innerLoose at this ⊢
      dsimp only
      rw [pointing_set_same hi (.opened c _) rfl, hset x, if_neg hne]
      exact this
    · unfold State.innerRefs at hrefs ⊢
      unfold State.innerLoose at hloose ⊢
      dsimp only
      rw [pointing_set_same hi (.opened c _) rfl, hset, hrefs, hloose, if_pos rfl]
      exact Owned.accounted_loose
  shares := by
    apply forall_getElem?_append
    · exact h.shares
    · exact h.parties c _ hc
  parties := by
    apply h.fits_set rfl
    · exact Nat.le_refl _
    · intro x inner hx
      exact ⟨inner, getElem?_append_of_eq_some hx, rfl⟩
    · exact h.unborrowed hi rfl
    · refine ⟨⟨⟨.unmade, .opened⟩, r⟩, by simp, ?_⟩
      have hne : i ≠ c := by
        rintro rfl
        rw [hi] at hc
        cases hc
      show (s.parties.set i _)[c]? = _
      rw [List.getElem?_set_ne hne, hc]

/-- The session has its share in the runtime from here on. -/
theorem wrap {c x : Nat} {inner : SessionInner} {o : Owned} (h : s.Sound) (hi : s.parties[i]? = some (.opened c x))
    (hx : s.inners[x]? = some inner) (hr : s.runtimes[inner.runtime]? = some o) :
    (((s.setRuntime inner.runtime o.clone).setInner x { inner.owned with arc := .new } inner).set i (.session x)).Sound := by
  have haccounted := h.inners x inner hx
  have hpos : 0 < s.innerLoose x := pointing_pos hi rfl
  obtain ⟨loose, hloose⟩ : ∃ loose, s.innerLoose x = loose + 1 := ⟨s.innerLoose x - 1, by omega⟩
  rw [hloose] at haccounted
  obtain ⟨hnone, hzero, hempty⟩ := haccounted.alone
  subst hzero
  rw [hnone] at haccounted
  have hshare : ∀ r, pointing SessionInner.runtimeRef r (s.inners.set x { inner with owned := { inner.owned with arc := .new } }) =
      pointing SessionInner.runtimeRef r s.inners + if inner.runtime = r then 1 else 0 := by
    intro r
    have := pointing_set hx SessionInner.runtimeRef r { inner with owned := { inner.owned with arc := .new } }
    simpa [SessionInner.runtimeRef, hempty, Arc.new] using this
  have hborrowed : 0 < s.runtimeRefs inner.runtime := by
    obtain ⟨inner', hx', hc⟩ := h.parties i _ hi
    rw [hx] at hx'
    cases hx'
    exact Nat.lt_of_lt_of_le (pointing_pos hc rfl) (Nat.le_add_right _ _)
  constructor
  · have hruntime := (h.runtimes _ o hr).clone hborrowed
    apply forall_getElem?_set
    · intro r o' hr' hne
      have := h.runtimes r o' hr'
      unfold State.runtimeRefs State.runtimeLoose at this ⊢
      simp only [State.set, State.setInner, State.setRuntime]
      rw [pointing_set_same hi (.session x) rfl, pointing_set_same hi (.session x) rfl, hshare r, if_neg (Ne.symm hne)]
      exact this
    · unfold State.runtimeRefs State.runtimeLoose at hruntime ⊢
      simp only [State.set, State.setInner, State.setRuntime]
      rw [pointing_set_same hi (.session x) rfl, pointing_set_same hi (.session x) rfl, hshare, if_pos rfl]
      exact hruntime
  · have hrefs := fun x' => pointing_set hi Party.innerRef x' (.session x)
    have hdrop := fun x' => pointing_set hi Party.looseInner x' (.session x)
    simp only [Party.innerRef, Option.some.injEq, reduceCtorEq, if_false, Nat.add_zero] at hrefs
    simp only [Party.looseInner, Option.some.injEq, reduceCtorEq, if_false, Nat.add_zero] at hdrop
    apply forall_getElem?_set
    · intro x' inner' hx' hne
      have := h.inners x' inner' hx'
      have hdrop := hdrop x'
      rw [if_neg (Ne.symm hne), Nat.add_zero] at hdrop
      unfold State.innerRefs State.innerLoose at this ⊢
      simp only [State.set, State.setInner, State.setRuntime]
      rw [hrefs x', if_neg (Ne.symm hne), hdrop]
      exact this
    · have hdrop := hdrop x
      rw [if_pos rfl] at hdrop
      unfold State.innerRefs at hnone ⊢
      unfold State.innerLoose at hloose ⊢
      simp only [State.set, State.setInner, State.setRuntime]
      rw [hrefs x, if_pos rfl, hnone]
      convert haccounted.wrap using 1
      omega
  · have hlength : (s.runtimes.set inner.runtime o.clone).length = s.runtimes.length := List.length_set
    apply forall_getElem?_set
    · intro x' inner' hx' _
      show inner'.runtime < (s.runtimes.set _ _).length
      rw [hlength]
      exact h.shares x' inner' hx'
    · show inner.runtime < (s.runtimes.set _ _).length
      rw [hlength]
      exact h.shares x inner hx
  · apply h.fits_set rfl
    · simp [State.set, State.setInner, State.setRuntime]
    · exact setInner_runtime _ hx
    · exact h.unborrowed hi rfl
    · show x < (s.inners.set x _).length
      rw [List.length_set]
      exact (List.getElem?_eq_some_iff.1 hx).1

/-- A killer takes a share in a session. -/
theorem takeKiller {k x : Nat} {inner : SessionInner} (h : s.Sound) (hk : s.parties[k]? = some p) (hp : p.innerRef = some x)
    (hx : s.inners[x]? = some inner) : ((s.setInner x inner.owned.clone inner).add (.killer x)).Sound := by
  have hpos : 0 < s.innerRefs x := pointing_pos hk hp
  constructor
  · intro r o hr
    have := h.runtimes r o hr
    unfold State.runtimeRefs State.runtimeLoose at this ⊢
    simp only [State.add, State.setInner, pointing_append]
    rw [pointing_set_same hx { inner with owned := inner.owned.clone } rfl]
    simpa [Party.runtimeRef, Party.looseRuntime] using this
  · apply forall_getElem?_set
    · intro x' inner' hx' hne
      have := h.inners x' inner' hx'
      unfold State.innerRefs State.innerLoose at this ⊢
      simpa [State.add, State.setInner, pointing_append, Party.innerRef, Party.looseInner, Ne.symm hne] using this
    · have := (h.inners x inner hx).clone hpos
      unfold State.innerRefs State.innerLoose at this ⊢
      simpa [State.add, State.setInner, pointing_append, Party.innerRef, Party.looseInner] using this
  · apply forall_getElem?_set
    · intro x' inner' hx' _
      exact h.shares x' inner' hx'
    · exact h.shares x inner hx
  · apply h.fits_add rfl
    · exact Nat.le_refl _
    · exact setInner_runtime _ hx
    · show x < (s.inners.set x _).length
      rw [List.length_set]
      exact (List.getElem?_eq_some_iff.1 hx).1

end State.Sound

/-- Every step keeps the account. -/
theorem State.Sound.step {s s' : State} {a : Act} (h : s.Sound) (hs : Step s a s') : s'.Sound := by
  cases hs with
  | openClient => exact h.openClient
  | @beginOpenSession c r hc =>
    exact h.join rfl rfl rfl rfl ⟨r, getElem?_append_of_eq_some hc⟩
  | openedSession hi hc => exact h.openedSession hi hc
  | refusedSession hi => exact h.rename hi (h.unborrowed hi rfl) rfl rfl rfl rfl trivial
  | wrap hi hx hr => exact h.wrap hi hx hr
  | takeKiller hk idle hx =>
    rcases hk with hk | hk
    · exact h.takeKiller hk rfl hx
    · exact h.takeKiller hk rfl hx
  | @run k x hk =>
    exact h.join rfl rfl rfl rfl ⟨x, getElem?_append_of_eq_some hk⟩
  | @kill k x hk =>
    exact h.join rfl rfl rfl rfl ⟨x, getElem?_append_of_eq_some hk⟩
  | returned hi =>
    rcases hi with hi | hi
    · exact h.rename hi (h.unborrowed hi rfl) rfl rfl rfl rfl trivial
    · exact h.rename hi (h.unborrowed hi rfl) rfl rfl rfl rfl trivial
  | dropClient hc free | close hc free =>
    have hfits := h.parties _ _ hc
    exact h.rename hc free rfl rfl rfl rfl hfits
  | drop hk free =>
    rcases hk with hk | hk
    · have hfits := h.parties _ _ hk
      exact h.rename hk free rfl rfl rfl rfl hfits
    · have hfits := h.parties _ _ hk
      exact h.rename hk free rfl rfl rfl rfl hfits
  | releaseInner hi hx => exact h.releaseInner hi hx
  | destroySession hi hx => exact h.destroySession hi hx
  | @releaseRuntime i r closing o hi hr =>
    have hfits : r < s.runtimes.length := h.parties i _ hi
    obtain ⟨hruntimeRef, hlooseRuntime, hinnerRef, hlooseInner⟩ := Party.dropped_holds_nothing closing false
    cases hlast : o.arc.isLast with
    | true =>
      rw [if_pos rfl]
      apply h.releaseRuntime hi rfl hr ⟨rfl, rfl⟩ ⟨rfl, rfl⟩ ⟨rfl, rfl⟩ rfl
      · rw [hlast]
        rfl
      · simpa [State.Fits, State.set, State.setRuntime] using hfits
    | false =>
      rw [if_neg Bool.false_ne_true]
      apply h.releaseRuntime hi rfl hr ⟨rfl, rfl⟩ ⟨hinnerRef, hlooseInner⟩ ⟨rfl, rfl⟩ hruntimeRef
      · rw [hlast]
        exact hlooseRuntime
      · exact State.fits_dropped _ closing false
  | @destroyMongo i r closing o hi hr =>
    obtain ⟨hruntimeRef, hlooseRuntime, hinnerRef, hlooseInner⟩ := Party.dropped_holds_nothing closing false
    apply h.closeRuntime hi rfl hr ⟨rfl, rfl⟩ ⟨hinnerRef, hlooseInner⟩ ⟨rfl, rfl⟩ ⟨hruntimeRef, hlooseRuntime⟩
    exact State.fits_dropped _ closing false
  | @unwrap i r closing o hi hr last =>
    have hfits : r < s.runtimes.length := h.parties i _ hi
    apply h.releaseRuntime hi rfl hr ⟨rfl, rfl⟩ ⟨rfl, rfl⟩ ⟨rfl, rfl⟩ rfl
    · rw [last]
      rfl
    · simpa [State.Fits, State.set, State.setRuntime] using hfits
  | stillShared hi hr =>
    have hfits := h.parties _ _ hi
    exact h.rename hi (h.unborrowed hi rfl) rfl rfl rfl rfl hfits
  | @closeMongo i r closing o hi hr =>
    obtain ⟨hruntimeRef, hlooseRuntime, hinnerRef, hlooseInner⟩ := Party.dropped_holds_nothing closing true
    rw [show o.close.close = o.close from congrArg (Owned.mk o.arc) (Pointer.close_close o.native)]
    apply h.closeRuntime hi rfl hr ⟨rfl, rfl⟩ ⟨hinnerRef, hlooseInner⟩ ⟨rfl, rfl⟩ ⟨hruntimeRef, hlooseRuntime⟩
    exact State.fits_dropped _ closing true

/-- Every run has every object accounted for. -/
theorem State.sound_of_reach {s : State} (h : handles.Reach s) : s.Sound := by
  refine h.induct ?_ ?_
  · rintro s rfl
    exact ⟨by simp, by simp, by simp, by simp⟩
  · intro s a s' _ ih hs
    exact ih.step hs

/-! ## What is open -/

namespace State

/-- The engine handle is open. -/
def OpenRuntime (r : Nat) (s : State) : Prop := ∃ o, s.runtimes[r]? = some o ∧ o.native.set = true

/-- The native session is open, and so is the engine it runs on. -/
def OpenSession (x : Nat) (s : State) : Prop :=
  ∃ inner, s.inners[x]? = some inner ∧ inner.owned.native.set = true ∧ s.OpenRuntime inner.runtime

end State

/-- Dropped, closed or returned. -/
def Party.isOver : Party → Bool
  | .closed _ | .gone => true
  | _ => false

namespace State.Sound

variable {s : State} {i x r : Nat}

theorem openRuntime (h : s.Sound) (hr : r < s.runtimes.length) (pos : 0 < s.runtimeRefs r) : s.OpenRuntime r := by
  have ho := List.getElem?_eq_getElem hr
  exact ⟨_, ho, (h.runtimes r _ ho).isSet (Nat.lt_of_lt_of_le pos (Nat.le_add_right _ _))⟩

/-- An open session keeps a reference to its runtime alive. -/
theorem share {inner : SessionInner} (h : s.Sound) (hx : s.inners[x]? = some inner) (hset : inner.owned.native.set = true) :
    0 < s.runtimeRefs inner.runtime := by
  have haccounted := (h.inners x inner hx).set
  rw [hset, Bool.toNat_true] at haccounted
  cases hfull : inner.owned.arc.full with
  | true =>
    have hpos : 0 < pointing SessionInner.runtimeRef inner.runtime s.inners :=
      pointing_pos hx (by rw [SessionInner.runtimeRef, if_pos hfull])
    exact Nat.lt_of_lt_of_le hpos (Nat.le_add_left _ _)
  | false =>
    rw [hfull, Bool.toNat_false] at haccounted
    obtain ⟨i, p, hi, hp⟩ := exists_of_tally_pos (show 0 < s.innerLoose x by omega)
    -- The session is loose: on its way into an `Arc` under a borrow of the client, or out of it
    -- with the share that was beside it.
    have hloose : p.looseInner = some x := by
      refine Classical.byContradiction fun hne => ?_
      rw [if_neg hne] at hp
      omega
    have hfits := h.parties i p hi
    cases p with
    | opened c x' =>
      obtain rfl := Option.some.inj hloose
      obtain ⟨inner', hx', hc⟩ := hfits
      rw [hx] at hx'
      cases hx'
      exact Nat.lt_of_lt_of_le (pointing_pos hc rfl) (Nat.le_add_right _ _)
    | dropping drop closing =>
      cases drop with
      | session x' r =>
        obtain rfl := Option.some.inj hloose
        obtain ⟨inner', hx', rfl, -⟩ := hfits
        rw [hx] at hx'
        cases hx'
        exact Nat.lt_of_lt_of_le (pointing_pos hi rfl) (Nat.le_add_right _ _)
      | _ => cases hloose
    | _ => cases hloose

theorem openSession (h : s.Sound) (hx : x < s.inners.length) (pos : 0 < s.innerRefs x) : s.OpenSession x := by
  have hinner := List.getElem?_eq_getElem hx
  have hset := (h.inners x _ hinner).isSet (Nat.lt_of_lt_of_le pos (Nat.le_add_right _ _))
  exact ⟨_, hinner, hset, h.openRuntime (h.shares x _ hinner) (h.share hinner hset)⟩

/-- The next step of a drop is there to be taken. -/
theorem drops {drop : Drop} {closing : Bool} (h : s.Sound) (hi : s.parties[i]? = some (.dropping drop closing)) :
    ∃ s', Step s (.glue i) s' := by
  have hfits := h.parties i _ hi
  cases drop with
  | inner x => exact ⟨_, .releaseInner hi (List.getElem?_eq_getElem hfits)⟩
  | session x r =>
    obtain ⟨inner, hx, -⟩ := hfits
    exact ⟨_, .destroySession hi hx⟩
  | runtime r => exact ⟨_, .releaseRuntime hi (List.getElem?_eq_getElem hfits)⟩
  | mongo r => exact ⟨_, .destroyMongo hi (List.getElem?_eq_getElem hfits)⟩
  | unwrap r =>
    obtain ⟨o, ho⟩ : ∃ o, s.runtimes[r]? = some o := ⟨_, List.getElem?_eq_getElem hfits⟩
    cases hlast : o.arc.isLast with
    | true => exact ⟨_, .unwrap hi ho hlast⟩
    | false => exact ⟨_, .stillShared hi ho hlast⟩
  | close r => exact ⟨_, .closeMongo hi (List.getElem?_eq_getElem hfits)⟩

/-- Nobody is left, so nothing is open. -/
theorem nothing_left (h : s.Sound) (ended : ∀ p ∈ s.parties, p.isOver = true) :
    (∀ o ∈ s.runtimes, o.native.closes = 1) ∧ ∀ inner ∈ s.inners, inner.owned.native.closes = 1 := by
  have hnone : ∀ p ∈ s.parties, p.runtimeRef = none ∧ p.looseRuntime = none ∧ p.innerRef = none ∧ p.looseInner = none := by
    intro p hp
    have := ended p hp
    cases p with
    | closed _ | gone => exact ⟨rfl, rfl, rfl, rfl⟩
    | _ => cases this
  have hinners : ∀ (x : Nat) (inner : SessionInner), s.inners[x]? = some inner →
      inner.owned.native.closes = 1 ∧ inner.owned.arc.full = false := by
    intro x inner hx
    have haccounted := h.inners x inner hx
    have hrefs : s.innerRefs x = 0 := pointing_eq_zero fun p hp => by simp [(hnone p hp).2.2.1]
    have hloose : s.innerLoose x = 0 := pointing_eq_zero fun p hp => by simp [(hnone p hp).2.2.2]
    rw [hrefs, hloose] at haccounted
    refine ⟨haccounted.closed.2, ?_⟩
    rw [haccounted.held.full]
    rfl
  constructor
  · intro o ho
    obtain ⟨r, hr⟩ := List.getElem?_of_mem ho
    have haccounted := h.runtimes r o hr
    have hrefs : s.runtimeRefs r = 0 := by
      rw [State.runtimeRefs, pointing_eq_zero fun p hp => by simp [(hnone p hp).1], pointing_eq_zero]
      intro inner hinner
      obtain ⟨x, hx⟩ := List.getElem?_of_mem hinner
      simp [SessionInner.runtimeRef, (hinners x inner hx).2]
    have hloose : s.runtimeLoose r = 0 := pointing_eq_zero fun p hp => by simp [(hnone p hp).2.1]
    rw [hrefs, hloose] at haccounted
    exact haccounted.closed.2
  · intro inner hinner
    obtain ⟨x, hx⟩ := List.getElem?_of_mem hinner
    exact (hinners x inner hx).1

end State.Sound

/-- **Whoever can reach a native object finds it open.** In every interleaving of any number of
clients, sessions and killers, of the calls on them and of the steps in which they are dropped or
closed: a call in flight works on an open session of an open engine; no engine is closed under an
open session; each native object is closed at most once; `Runtime::close` runs only when every
session of the engine has been closed; a drop never gets stuck; and once every value is gone, each
engine and each session has been closed. -/
theorem native_objects_outlive_their_users {s : State} (h : handles.Reach s) :
    (∀ (i c : Nat), s.parties[i]? = some (.opening c) → ∃ r, s.parties[c]? = some (.client r) ∧ s.OpenRuntime r) ∧
    (∀ (i k : Nat), s.parties[i]? = some (.running k) → ∃ x, s.parties[k]? = some (.session x) ∧ s.OpenSession x) ∧
    (∀ (i k : Nat), s.parties[i]? = some (.killing k) → ∃ x, s.parties[k]? = some (.killer x) ∧ s.OpenSession x) ∧
    (∀ inner ∈ s.inners, inner.owned.native.set = true → s.OpenRuntime inner.runtime) ∧
    ((∀ o ∈ s.runtimes, o.native.closes ≤ 1) ∧ ∀ inner ∈ s.inners, inner.owned.native.closes ≤ 1) ∧
    (∀ (i r : Nat) (closing : Bool), s.parties[i]? = some (.dropping (.close r) closing) →
      ∀ inner ∈ s.inners, inner.runtime = r → inner.owned.native.closes = 1) ∧
    (∀ (i : Nat) (drop : Drop) (closing : Bool), s.parties[i]? = some (.dropping drop closing) →
      ∃ s', Step s (.glue i) s') ∧
    ((∀ p ∈ s.parties, p.isOver = true) →
      (∀ o ∈ s.runtimes, o.native.closes = 1) ∧ ∀ inner ∈ s.inners, inner.owned.native.closes = 1) := by
  have hsound := State.sound_of_reach h
  refine ⟨?_, ?_, ?_, ?_, ⟨?_, ?_⟩, ?_, fun i drop closing => hsound.drops, hsound.nothing_left⟩
  · intro i c hi
    obtain ⟨r, hc⟩ := hsound.parties i _ hi
    exact ⟨r, hc, hsound.openRuntime (hsound.parties c _ hc) (Nat.lt_of_lt_of_le (pointing_pos hc rfl) (Nat.le_add_right _ _))⟩
  · intro i k hi
    obtain ⟨x, hk⟩ := hsound.parties i _ hi
    exact ⟨x, hk, hsound.openSession (hsound.parties k _ hk) (pointing_pos hk rfl)⟩
  · intro i k hi
    obtain ⟨x, hk⟩ := hsound.parties i _ hi
    exact ⟨x, hk, hsound.openSession (hsound.parties k _ hk) (pointing_pos hk rfl)⟩
  · intro inner hinner hset
    obtain ⟨x, hx⟩ := List.getElem?_of_mem hinner
    exact hsound.openRuntime (hsound.shares x inner hx) (hsound.share hx hset)
  · intro o ho
    obtain ⟨r, hr⟩ := List.getElem?_of_mem ho
    exact (hsound.runtimes r o hr).closes_le
  · intro inner hinner
    obtain ⟨x, hx⟩ := List.getElem?_of_mem hinner
    exact (hsound.inners x inner hx).closes_le
  · intro i r closing hi inner hinner hruntime
    obtain ⟨x, hx⟩ := List.getElem?_of_mem hinner
    have hloose : 0 < s.runtimeLoose r := pointing_pos hi rfl
    obtain ⟨o, ho⟩ : ∃ o, s.runtimes[r]? = some o := ⟨_, List.getElem?_eq_getElem (hsound.parties i _ hi)⟩
    have haccounted := hsound.runtimes r o ho
    obtain ⟨n, hn⟩ : ∃ n, s.runtimeLoose r = n + 1 := ⟨s.runtimeLoose r - 1, by omega⟩
    rw [hn] at haccounted
    have honce := (hsound.inners x inner hx).once
    cases hset : inner.owned.native.set with
    | true =>
      have hshare := hsound.share hx hset
      rw [hruntime, haccounted.alone.1] at hshare
      exact absurd hshare (Nat.lt_irrefl 0)
    | false => simpa [hset] using honce

/-- A command runs on the one session of the one client. -/
def running : State where
  runtimes := [⟨⟨2, true⟩, .opened⟩]
  inners := [⟨⟨.new, .opened⟩, 0⟩]
  parties := [.client 0, .session 0, .running 1]

theorem reach_running : handles.Reach running := by
  have hopen := System.Reach.next (S := handles) (.init rfl) .openClient
  have hasked := hopen.next (.beginOpenSession (c := 0) (r := 0) rfl)
  have hopened := hasked.next (.openedSession (i := 1) (c := 0) (r := 0) rfl rfl)
  have hwrapped := hopened.next (.wrap (i := 1) (c := 0) (x := 0) rfl rfl rfl)
  exact hwrapped.next (.run (h := 1) (x := 0) rfl (by decide))

theorem running_command_finds_its_engine_open : handles.Reach running ∧ ∃ x, running.OpenSession x := by
  obtain ⟨x, -, hopen⟩ := (native_objects_outlive_their_users reach_running).2.1 2 1 rfl
  exact ⟨reach_running, x, hopen⟩

end EmbeddedMongo.Ffi
