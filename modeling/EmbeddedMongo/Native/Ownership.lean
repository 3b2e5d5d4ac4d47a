import EmbeddedMongo.Native.Runtime

/-!
# Who owns the one runtime

`runtimeActive` counts its owners: it is set while one `Runtime` has `_ownsActiveRuntime`, and no
two ever do. What a `Runtime` still has to give up is read off the statements of `cleanup` it has
before it; a second `cleanup` finds nothing.
-/

namespace EmbeddedMongo.Native

open Conc

variable {E : Type}

/-! ## One cleanup -/

/-- The actions among the statements still to come. -/
def pending : List Stmt → List Action
  | .attempt action :: todo => action :: pending todo
  | _ :: todo => pending todo
  | [] => []

/-- Where `cleanup` can be. -/
theorem cleanup_cases {done todo : List Stmt} {stmt : Stmt} (h : cleanup = done ++ stmt :: todo) :
    (stmt = .attempt .shutDownIndexBuilds ∧ todo = cleanup.drop 1) ∨
    (stmt = .attempt .clearShardingState ∧ todo = cleanup.drop 2) ∨
    (stmt = .attempt .closeDatabases ∧ todo = cleanup.drop 3) ∨
    (stmt = .attempt .shutDownStorage ∧ todo = cleanup.drop 4) ∨
    (stmt = .attempt .unlockFile ∧ todo = cleanup.drop 5) ∨
    (stmt = .dropContext ∧ todo = cleanup.drop 6) ∨ (stmt = .release ∧ todo = []) := by
  have htodo : todo = cleanup.drop (done.length + 1) := by
    rw [h, ← List.drop_drop, List.drop_left]
    rfl
  have hstmt : cleanup[done.length]? = some stmt := by
    rw [h]
    simp
  have hlength : done.length < 7 := by
    have := congrArg List.length h
    simp only [cleanup, Action.all, List.map_cons, List.map_nil, List.length_append, List.length_cons, List.length_nil] at this
    omega
  rw [htodo]
  generalize done.length = n at hstmt hlength
  match n, hlength with
  | 0, _ | 1, _ | 2, _ | 3, _ | 4, _ | 5, _ | 6, _ =>
    obtain rfl := Option.some.inj hstmt
    decide

/-- No attempt decides whether a later action is due. -/
theorem due_mark {done todo : List Stmt} {action : Action} (h : cleanup = done ++ .attempt action :: todo) (flags : Flags) :
    ∀ later ∈ pending todo, later.due (action.mark flags) = later.due flags := by
  intro later hlater
  rcases cleanup_cases h with ⟨ha, rfl⟩ | ⟨ha, rfl⟩ | ⟨ha, rfl⟩ | ⟨ha, rfl⟩ | ⟨ha, rfl⟩ | ⟨ha, -⟩ | ⟨ha, -⟩
  all_goals cases ha
  all_goals cases later
  all_goals first | rfl | exact absurd hlater (by decide)

/-- A `cleanup` on its way: the slot and the service context are held until it comes to the
statement that gives them up, and what was attempted and what is still due are together what was
due when it began. -/
structure Cleaning.Sound (c : Cleaning E) (flags : Flags) : Prop where
  suffix_ : ∃ done, cleanup = done ++ c.todo
  owns : flags.ownsActiveRuntime = (c.found.ownsActiveRuntime && decide (Stmt.release ∈ c.todo))
  context : flags.serviceContext = (c.found.serviceContext && decide (Stmt.dropContext ∈ c.todo))
  ran : c.ran.map Prod.fst ++ (pending c.todo).filter (Action.due flags) = Action.all.filter (Action.due c.found)
  failure : c.failure = c.ran.findSome? Prod.snd

theorem Cleaning.sound_begin (caller : Caller E) (flags : Flags) : (Cleaning.begin caller flags).Sound flags where
  suffix_ := ⟨[], rfl⟩
  owns := (Bool.and_true _).symm
  context := (Bool.and_true _).symm
  ran := rfl
  failure := rfl

namespace Cleaning.Sound

variable {c : Cleaning E} {flags : Flags} {todo : List Stmt} {action : Action}

theorem mark_owns : (action.mark flags).ownsActiveRuntime = flags.ownsActiveRuntime := by
  cases action <;> rfl

theorem mark_context : (action.mark flags).serviceContext = flags.serviceContext := by
  cases action <;> rfl

/-- An action was attempted, whatever it threw. -/
theorem attempted (h : c.Sound flags) (htodo : c.todo = .attempt action :: todo) (due : action.due flags = true)
    (thrown : Option E) :
    Sound { c with todo := todo, failure := c.failure.or thrown, ran := c.ran ++ [(action, thrown)] } (action.mark flags) := by
  obtain ⟨⟨done, hdone⟩, howns, hcontext, hran, hfailure⟩ := h
  rw [htodo] at hdone howns hcontext hran
  refine ⟨⟨done ++ [.attempt action], by simpa using hdone⟩, ?_, ?_, ?_, ?_⟩
  · rw [mark_owns, howns]
    simp
  · rw [mark_context, hcontext]
    simp
  · rw [← hran, pending, List.filter_cons_of_pos due, List.filter_congr (due_mark hdone flags)]
    simp
  · rw [hfailure, List.findSome?_append]
    cases thrown <;> rfl

theorem skipped (h : c.Sound flags) (htodo : c.todo = .attempt action :: todo) (due : ¬action.due flags = true) :
    Sound { c with todo := todo } flags := by
  obtain ⟨⟨done, hdone⟩, howns, hcontext, hran, hfailure⟩ := h
  rw [htodo] at hdone howns hcontext hran
  refine ⟨⟨done ++ [.attempt action], by simpa using hdone⟩, ?_, ?_, ?_, hfailure⟩
  · rw [howns]
    simp
  · rw [hcontext]
    simp
  · rw [← hran, pending, List.filter_cons_of_neg due]

/-- The service context is dropped. -/
theorem contextDropped (h : c.Sound flags) (htodo : c.todo = .dropContext :: todo) :
    Sound { c with todo := todo }
      (if flags.serviceContext = true then { flags with lifecycleStrand := false, serviceContext := false } else flags) := by
  obtain ⟨⟨done, hdone⟩, howns, hcontext, hran, hfailure⟩ := h
  rw [htodo] at hdone howns hcontext hran
  obtain rfl : todo = [.release] := by
    rcases cleanup_cases hdone with ⟨ha, -⟩ | ⟨ha, -⟩ | ⟨ha, -⟩ | ⟨ha, -⟩ | ⟨ha, -⟩ | ⟨-, rfl⟩ | ⟨ha, -⟩
    all_goals first | rfl | cases ha
  refine ⟨⟨done ++ [.dropContext], by simpa using hdone⟩, ?_, ?_, hran, hfailure⟩
  · split
    · exact howns
    · exact howns
  · split
    · simp
    · rename_i hnone
      simpa using hnone

/-- The process may have a runtime again. -/
theorem released (h : c.Sound flags) (htodo : c.todo = .release :: todo) :
    Sound { c with todo := todo } { flags with ownsActiveRuntime := false } := by
  obtain ⟨⟨done, hdone⟩, -, hcontext, hran, hfailure⟩ := h
  rw [htodo] at hdone hcontext hran
  obtain rfl : todo = [] := by
    rcases cleanup_cases hdone with ⟨ha, -⟩ | ⟨ha, -⟩ | ⟨ha, -⟩ | ⟨ha, -⟩ | ⟨ha, -⟩ | ⟨ha, -⟩ | ⟨-, rfl⟩
    all_goals first | rfl | cases ha
  exact ⟨⟨done ++ [.release], by simpa using hdone⟩, by simp, hcontext, hran, hfailure⟩

/-- At its end a cleanup has attempted exactly what was due, and holds nothing any more. -/
theorem finished (h : c.Sound flags) (htodo : c.todo = []) :
    c.ran.map Prod.fst = Action.all.filter (Action.due c.found) ∧ flags.ownsActiveRuntime = false ∧
      flags.serviceContext = false := by
  obtain ⟨-, howns, hcontext, hran, -⟩ := h
  rw [htodo] at howns hcontext hran
  simp only [pending, List.filter_nil, List.append_nil] at hran
  exact ⟨hran, by simpa using howns, by simpa using hcontext⟩

/-- A cleanup that finds no service context attempts nothing. -/
theorem idle (h : c.Sound flags) (hfound : c.found.serviceContext = false) : c.ran = [] ∧ flags.serviceContext = false := by
  obtain ⟨-, -, hcontext, hran, -⟩ := h
  rw [hfound, Bool.false_and] at hcontext
  have hnone : Action.all.filter (Action.due c.found) = [] := by
    simp [Action.all, Action.due, hfound]
  rw [hnone, List.append_eq_nil_iff, List.map_eq_nil_iff] at hran
  exact ⟨hran.1, hcontext⟩

end Cleaning.Sound

/-! ## One runtime -/

/-- A runtime holds the slot from its construction to the end of its first cleanup. -/
def Runtime.Sound (r : Runtime E) : Prop :=
  (r.closes ≠ [] → r.cleaned = true) ∧
  match r.pc with
  | .refused => r.flags = .unset
  | .initializing _ => r.flags.ownsActiveRuntime = true ∧ r.cleaned = false
  | .constructed => r.flags.ownsActiveRuntime = !r.cleaned ∧ (r.cleaned = true → r.flags.serviceContext = false)
  | .cleaning c =>
    c.Sound r.flags ∧ c.found.ownsActiveRuntime = !r.cleaned ∧ (r.cleaned = true → c.found.serviceContext = false)
  | .failed _ | .destroyed => r.flags.ownsActiveRuntime = false ∧ r.flags.serviceContext = false

/-- One for the runtime that owns the slot. -/
def Runtime.owner (r : Runtime E) : Nat := r.flags.ownsActiveRuntime.toNat

/-- The slot is taken exactly as often as it is owned. -/
structure Process.Sound (p : Process E) : Prop where
  counted : tally Runtime.owner p.runtimes = p.runtimeActive.toNat
  runtimes : ∀ r ∈ p.runtimes, r.Sound

namespace Process.Sound

variable {p : Process E} {i : Nat} {r r' : Runtime E}

/-- A runtime that moves without taking or giving up the slot. -/
theorem move (h : p.Sound) (hr : p.runtimes[i]? = some r) (howner : r'.owner = r.owner) (hsound : r'.Sound)
    (context : Option Nat) :
    Sound { p with globalServiceContext := context, runtimes := p.runtimes.set i r' } where
  counted := by
    rw [tally_set_eq hr, howner, Nat.add_sub_cancel]
    exact h.counted
  runtimes := forall_mem_set h.runtimes hsound

theorem of_getElem? (h : p.Sound) (hr : p.runtimes[i]? = some r) : r.Sound := h.runtimes r (List.mem_of_getElem? hr)

theorem construct (h : p.Sound) : p.construct.Sound := by
  have hcounted := h.counted
  unfold Process.construct
  split
  · refine ⟨?_, List.forall_mem_append.2 ⟨h.runtimes, ?_⟩⟩
    · rw [tally_append, hcounted]
      rfl
    · simp [Runtime.Sound]
  · rename_i hfree
    refine ⟨?_, List.forall_mem_append.2 ⟨h.runtimes, ?_⟩⟩
    · rw [tally_append, hcounted, Bool.not_eq_true] at *
      rw [hfree]
      rfl
    · simp [Runtime.Sound]

theorem statement {c : Cleaning E} {stmt : Stmt} {todo : List Stmt} (h : p.Sound) (thrown : Option E)
    (hr : p.runtimes[i]? = some r) (pc : r.pc = .cleaning c) (htodo : c.todo = stmt :: todo) :
    (p.statement i r c thrown todo stmt).Sound := by
  have hsound := h.of_getElem? hr
  unfold Runtime.Sound at hsound
  rw [pc] at hsound
  obtain ⟨hcloses, hcleaning, howns, hcontext⟩ := hsound
  cases stmt with
  | attempt action =>
    unfold Process.statement
    dsimp only
    split
    · rename_i due
      apply h.move hr
      · exact congrArg Bool.toNat Cleaning.Sound.mark_owns
      · exact ⟨hcloses, hcleaning.attempted htodo due thrown, howns, hcontext⟩
    · rename_i due
      refine h.move hr ?_ ?_ _
      · rfl
      · exact ⟨hcloses, hcleaning.skipped htodo due, howns, hcontext⟩
  | dropContext =>
    apply h.move hr
    · show Bool.toNat _ = _
      split <;> rfl
    · exact ⟨hcloses, hcleaning.contextDropped htodo, howns, hcontext⟩
  | release =>
    refine ⟨?_, forall_mem_set h.runtimes ⟨hcloses, hcleaning.released htodo, howns, hcontext⟩⟩
    -- The owner is the only one counted, so with it the count goes to zero.
    have hcounted := h.counted
    have hle := le_tally Runtime.owner hr
    have hactive := Bool.toNat_le p.runtimeActive
    show tally Runtime.owner (p.runtimes.set i _) =
      Bool.toNat (if r.flags.ownsActiveRuntime = true then false else p.runtimeActive)
    rw [tally_set_eq hr, hcounted]
    rw [hcounted] at hle
    unfold Runtime.owner at hle ⊢
    cases howner : r.flags.ownsActiveRuntime with
    | true =>
      rw [howner, Bool.toNat_true] at hle
      simp only [if_true, Bool.toNat_true, Bool.toNat_false]
      omega
    | false => simp

end Process.Sound

theorem Runtime.Sound.finish {r : Runtime E} {c : Cleaning E} (h : r.Sound) (pc : r.pc = .cleaning c) (htodo : c.todo = []) :
    (r.finish c).Sound := by
  unfold Runtime.Sound at h
  rw [pc] at h
  obtain ⟨hcloses, hcleaning, -, -⟩ := h
  obtain ⟨-, howns, hcontext⟩ := hcleaning.finished htodo
  unfold Runtime.finish
  split
  · exact ⟨fun _ => rfl, howns, hcontext⟩
  · exact ⟨fun _ => rfl, howns, fun _ => hcontext⟩
  · exact ⟨fun _ => rfl, howns, hcontext⟩

/-- Every step keeps to one owner. -/
theorem Process.Sound.step {p p' : Process E} {a : Act E} (h : p.Sound) (hstep : Step p a p') : p'.Sound := by
  cases hstep with
  | construct => exact h.construct
  | @part i r part todo hr pc =>
    have hsound := h.of_getElem? hr
    unfold Runtime.Sound at hsound
    rw [pc] at hsound
    have howns : (part.mark r.flags).ownsActiveRuntime = r.flags.ownsActiveRuntime := by
      cases part <;> rfl
    apply h.move hr (congrArg Bool.toNat howns)
    exact ⟨hsound.1, howns.trans hsound.2.1, hsound.2.2⟩
  | @partThrows i r part todo e hr pc =>
    have hsound := h.of_getElem? hr
    unfold Runtime.Sound at hsound
    rw [pc] at hsound
    obtain ⟨hcloses, howns, hcleaned⟩ := hsound
    refine h.move hr ?_ ?_ _
    · rfl
    · refine ⟨hcloses, Cleaning.sound_begin _ _, ?_, ?_⟩
      · simpa [Cleaning.begin, hcleaned] using howns
      · simp [hcleaned]
  | constructed hr pc =>
    have hsound := h.of_getElem? hr
    unfold Runtime.Sound at hsound
    rw [pc] at hsound
    obtain ⟨hcloses, howns, hcleaned⟩ := hsound
    refine h.move hr ?_ ?_ _
    · rfl
    · refine ⟨hcloses, ?_, ?_⟩
      · simpa [hcleaned] using howns
      · simp [hcleaned]
  | close hr pc | destroy hr pc =>
    have hsound := h.of_getElem? hr
    unfold Runtime.Sound at hsound
    rw [pc] at hsound
    refine h.move hr ?_ ?_ _
    · rfl
    · exact ⟨hsound.1, Cleaning.sound_begin _ _, hsound.2⟩
  | statement thrown hr pc htodo => exact h.statement thrown hr pc htodo
  | @finish i r c hr pc htodo =>
    refine h.move hr ?_ ((h.of_getElem? hr).finish pc htodo) _
    unfold Runtime.finish
    split <;> rfl

/-- Every run has one owner at most. -/
theorem Process.sound_of_reach {p : Process E} (h : (process E).Reach p) : p.Sound := by
  apply h.induct
  · rintro p rfl
    exact ⟨rfl, by simp [Process.start]⟩
  · intro p a p' _ hsound hstep
    exact hsound.step hstep

/-! ## The process -/

namespace Process.Sound

variable {p p' : Process E} {i j : Nat} {r r' : Runtime E}

/-- The flag is set just while a runtime owns it. -/
theorem active_iff (h : p.Sound) :
    p.runtimeActive = true ↔ ∃ (i : Nat) (r : Runtime E), p.runtimes[i]? = some r ∧ r.flags.ownsActiveRuntime = true := by
  have hcounted := h.counted
  constructor
  · intro hactive
    rw [hactive, Bool.toNat_true] at hcounted
    obtain ⟨i, r, hr, hpos⟩ := exists_of_tally_pos (hcounted ▸ Nat.one_pos)
    refine ⟨i, r, hr, ?_⟩
    cases howns : r.flags.ownsActiveRuntime with
    | true => rfl
    | false =>
      rw [Runtime.owner, howns] at hpos
      cases hpos
  · rintro ⟨i, r, hr, howns⟩
    have hle := le_tally Runtime.owner hr
    rw [hcounted, Runtime.owner, howns] at hle
    cases hactive : p.runtimeActive with
    | true => rfl
    | false =>
      rw [hactive] at hle
      cases hle

/-- No two runtimes own it. -/
theorem owner_unique (h : p.Sound) (hr : p.runtimes[i]? = some r) (hr' : p.runtimes[j]? = some r')
    (howns : r.flags.ownsActiveRuntime = true) (howns' : r'.flags.ownsActiveRuntime = true) : i = j := by
  apply Decidable.byContradiction
  intro hne
  have hle := add_le_tally Runtime.owner hr hr' hne
  have hactive := Bool.toNat_le p.runtimeActive
  rw [h.counted, Runtime.owner, Runtime.owner, howns, howns', Bool.toNat_true] at hle
  omega

/-- A cleanup after a cleanup finds nothing to do. -/
theorem again {c : Cleaning E} (h : p.Sound) (hr : p.runtimes[i]? = some r) (pc : r.pc = .cleaning c)
    (hcleaned : r.cleaned = true) :
    c.ran = [] ∧ r.flags.ownsActiveRuntime = false ∧ r.flags.serviceContext = false := by
  have hsound := h.of_getElem? hr
  unfold Runtime.Sound at hsound
  rw [pc] at hsound
  obtain ⟨-, hcleaning, howns, hcontext⟩ := hsound
  obtain ⟨hran, hnone⟩ := hcleaning.idle (hcontext hcleaned)
  refine ⟨hran, ?_, hnone⟩
  rw [hcleaning.owns, howns, hcleaned]
  rfl

end Process.Sound

/-- **At most one native runtime, and the slot always comes back.** The process flag is up exactly
while some object owns it, no two objects own it, and a constructor is refused just then. An object
that failed to start, was shut down or was destroyed has given the flag back, and a cleanup has
then run every action that was due. -/
theorem native_runtime_is_one_and_comes_back {E : Type} {p : Process E} (h : (process E).Reach p) :
    (p.runtimeActive = true ↔
      ∃ (i : Nat) (r : Runtime E), p.runtimes[i]? = some r ∧ r.flags.ownsActiveRuntime = true) ∧
    (∀ (i j : Nat) (r r' : Runtime E), p.runtimes[i]? = some r → p.runtimes[j]? = some r' →
      r.flags.ownsActiveRuntime = true → r'.flags.ownsActiveRuntime = true → i = j) ∧
    (∀ p', Step p .construct p' → ∃ r, p'.runtimes = p.runtimes ++ [r] ∧
      (r.pc = .refused ↔ ∃ (i : Nat) (r : Runtime E), p.runtimes[i]? = some r ∧ r.flags.ownsActiveRuntime = true)) ∧
    (∀ r ∈ p.runtimes,
      (∃ e, r.pc = .failed e) ∨ r.pc = .constructed ∧ r.closes ≠ [] ∨ r.pc = .destroyed → r.flags.ownsActiveRuntime = false) ∧
    (∀ r ∈ p.runtimes, ∀ c, r.pc = .cleaning c → c.todo = [] →
      c.ran.map Prod.fst = Action.all.filter (Action.due c.found)) ∧
    (∀ (i : Nat) (r : Runtime E) (c : Cleaning E) (p' : Process E), p.runtimes[i]? = some r → r.pc = .cleaning c →
      c.caller = .close → Step p (.finish i) p' →
      ∃ r', p'.runtimes[i]? = some r' ∧ r'.closes = r.closes ++ [c.ran.findSome? Prod.snd]) ∧
    (∀ (i : Nat) (r : Runtime E) (c : Cleaning E), p.runtimes[i]? = some r → r.pc = .cleaning c → r.cleaned = true →
      c.ran = [] ∧ ∀ thrown p', Step p (.statement i thrown) p' →
        p'.runtimeActive = p.runtimeActive ∧ p'.globalServiceContext = p.globalServiceContext) := by
  have hsound := Process.sound_of_reach h
  refine ⟨hsound.active_iff, ?_, ?_, ?_, ?_, ?_, ?_⟩
  · intro i j r r' hr hr' howns howns'
    exact hsound.owner_unique hr hr' howns howns'
  · rintro p' ⟨⟩
    rw [← hsound.active_iff]
    unfold Process.construct
    split
    · rename_i hactive
      exact ⟨_, rfl, by simp [hactive]⟩
    · rename_i hactive
      exact ⟨_, rfl, by simp [hactive]⟩
  · intro r hr hover
    have hr := hsound.runtimes r hr
    unfold Runtime.Sound at hr
    rcases hover with ⟨e, pc⟩ | ⟨pc, hcloses⟩ | pc
    · rw [pc] at hr
      exact hr.2.1
    · rw [pc] at hr
      rw [hr.2.1, hr.1 hcloses]
      rfl
    · rw [pc] at hr
      exact hr.2.1
  · intro r hr c pc htodo
    have hr := hsound.runtimes r hr
    unfold Runtime.Sound at hr
    rw [pc] at hr
    exact (hr.2.1.finished htodo).1
  · intro i r c p' hr pc hcaller hstep
    cases hstep with
    | @finish _ r₁ c₁ hr₁ pc₁ htodo =>
      obtain rfl : r₁ = r := Option.some.inj (hr₁.symm.trans hr)
      obtain rfl : c₁ = c := Pc.cleaning.inj (pc₁.symm.trans pc)
      have hsound := hsound.of_getElem? hr
      unfold Runtime.Sound at hsound
      rw [pc] at hsound
      refine ⟨_, List.getElem?_set_self (List.getElem?_eq_some_iff.1 hr).1, ?_⟩
      rw [Runtime.finish, hcaller, hsound.2.1.failure]
  · intro i r c hr pc hcleaned
    obtain ⟨hran, howns, hcontext⟩ := hsound.again hr pc hcleaned
    refine ⟨hran, ?_⟩
    intro thrown p' hstep
    cases hstep with
    | @statement _ r₁ c₁ stmt todo _ hr₁ pc₁ htodo =>
      obtain rfl : r₁ = r := Option.some.inj (hr₁.symm.trans hr)
      cases stmt with
      | attempt action =>
        unfold Process.statement
        dsimp only
        split
        · exact ⟨rfl, rfl⟩
        · exact ⟨rfl, rfl⟩
      | dropContext =>
        exact ⟨rfl, if_neg (by simp [hcontext])⟩
      | release => exact ⟨if_neg (by simp [howns]), rfl⟩

/-- A runtime that could not make its directory, and the next one. -/
theorem native_runtime_is_one_and_comes_back_after_a_failure :
    ∃ p : Process String, (process String).Reach p ∧
      p.runtimes.map Runtime.pc = [.failed "no directory", .initializing initializeParts] ∧
      (p.runtimeActive = true ↔
        ∃ (i : Nat) (r : Runtime String), p.runtimes[i]? = some r ∧ r.flags.ownsActiveRuntime = true) := by
  have h : (process String).Reach (Process.construct .start) := System.Reach.next (.init rfl) .construct
  replace h := h.next (.partThrows "no directory" (i := 0) rfl rfl)
  replace h := h.next (.statement none (i := 0) rfl rfl rfl)
  replace h := h.next (.statement none (i := 0) rfl rfl rfl)
  replace h := h.next (.statement none (i := 0) rfl rfl rfl)
  replace h := h.next (.statement none (i := 0) rfl rfl rfl)
  replace h := h.next (.statement none (i := 0) rfl rfl rfl)
  replace h := h.next (.statement none (i := 0) rfl rfl rfl)
  replace h := h.next (.statement none (i := 0) rfl rfl rfl)
  replace h := h.next (.finish (i := 0) rfl rfl rfl)
  replace h := h.next .construct
  exact ⟨_, h, by decide, (native_runtime_is_one_and_comes_back h).1⟩

end EmbeddedMongo.Native
