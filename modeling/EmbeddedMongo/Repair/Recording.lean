import EmbeddedMongo.Conc.Trace
import EmbeddedMongo.Repair.Marker

/-!
# Recording the marker

`Marker::record` by itself, from whatever the directory holds: a marker, a partial file left by
another open, neither or both. Every one of its steps may fail, and the process may end after
any of them. Only the clean-up is taken to work: a file that exists is removed when asked to be,
and a marker that holds text is read.

A failed write or sync takes the partial file with it. A failed rename does not: the match arm
that renames has no clean-up, so the complete partial file stays.
-/

namespace EmbeddedMongo.Repair

open Conc Dialogue

namespace Directory

/-- A directory in which nobody prevents an existing file from being removed or read. -/
def unhindered (s : Directory) (q : Request) (r : Reply q) (s' : Directory) : Prop :=
  s.serve q r s' ∧
    match q, r with
    | .removePartial, .error _ => s.partialFile = none
    | .readMarker, .error _ => ∀ contents, s.marker ≠ some (.text contents)
    | _, _ => True

/-- The steps of `write_partial` and its clean-up. -/
inductive Preparing : Request → Prop
  | create : Preparing .createPartial
  | write (text : String) : Preparing (.writePartial text)
  | sync : Preparing .syncPartial
  | remove : Preparing .removePartial

theorem unhindered_marker {s s' : Directory} {q : Request} {r : Reply q} (hs : s.unhindered q r s')
    (preparing : Preparing q) : s'.marker = s.marker := by
  obtain ⟨hs, -⟩ := hs
  have only : ∃ left, s' = { s with partialFile := left } := by
    cases preparing with
    | create => cases r with
      | ok _ => exact ⟨_, hs⟩
      | error e => exact ⟨s.partialFile, hs⟩
    | write text => cases r with
      | ok _ => exact ⟨_, hs⟩
      | error e => exact hs
    | sync => exact ⟨s.partialFile, hs⟩
    | remove => cases r with
      | ok _ => exact ⟨_, hs⟩
      | error e => exact ⟨s.partialFile, hs⟩
  obtain ⟨left, rfl⟩ := only
  rfl

theorem unhindered_removePartial {s s' : Directory} {r : Reply .removePartial} (hs : s.unhindered .removePartial r s') :
    s'.partialFile = none := by
  cases r with
  | ok _ => exact congrArg partialFile hs.1
  | error e =>
    have unchanged : s' = s := hs.1
    rw [unchanged]
    exact hs.2

end Directory

namespace Marker

/-- `state` says what the directory holds. -/
theorem state_spec (s : Directory) : state.Always Directory.unhindered (· = s) (fun answer _ => answer = s.markerState) s := by
  refine ⟨rfl, fun reply s' hs => ?_⟩
  cases reply with
  | ok contents =>
    obtain ⟨⟨holds, unchanged⟩, -⟩ := hs
    refine ⟨unchanged, ?_⟩
    rw [Directory.markerState, holds]
    rfl
  | error e =>
    obtain ⟨unchanged, unreadable⟩ := hs
    refine ⟨unchanged, ?_⟩
    rw [Directory.markerState]
    cases hmarker : s.marker with
    | none => rfl
    | some found =>
      cases found with
      | notUtf8 => rfl
      | text contents => exact absurd hmarker (unreadable contents)

/-- The rename is among what was exchanged, and succeeded. -/
def Renamed (tr : List (Exchange Request Reply)) : Prop := ⟨.renamePartial, .ok ()⟩ ∈ tr

/-- The error is the rename's. -/
def RenameFailed (e : IoError) (tr : List (Exchange Request Reply)) : Prop := ⟨.renamePartial, .error e⟩ ∈ tr

/-- A record is in progress that began in `s`: the marker is still the one of `s`. -/
structure InProgress (s : Directory) (now : Directory × List (Exchange Request Reply)) : Prop where
  marker : now.1.marker = s.marker
  noRename : ∀ reply, ⟨.renamePartial, reply⟩ ∉ now.2

namespace InProgress

variable {s : Directory} {now after : Directory × List (Exchange Request Reply)}

theorem step {q : Request} {r : Reply q} (h : InProgress s now) (preparing : Directory.Preparing q)
    (hs : logged Directory.unhindered now q r after) : InProgress s after := by
  obtain ⟨hs, htr⟩ := hs
  constructor
  · rw [Directory.unhindered_marker hs preparing, h.marker]
  · intro reply hmem
    rw [htr, List.mem_append, List.mem_singleton] at hmem
    rcases hmem with hmem | hmem
    · exact h.noRename reply hmem
    · obtain ⟨rfl, -⟩ := Sigma.mk.inj hmem
      cases preparing

theorem markerState (h : InProgress s now) : now.1.markerState = s.markerState := by
  rw [Directory.markerState, h.marker, Directory.markerState]

end InProgress

/-- What is there when `write_partial` answers: on `ok`, the whole record under the partial name. -/
theorem writePartial_spec {s : Directory} {now : Directory × List (Exchange Request Reply)} (h : InProgress s now) :
    writePartial.Always (logged Directory.unhindered) (InProgress s)
      (fun written after => written = .ok () → after.1.partialFile = some (.text (RECORD ++ "\n" ++ EXPLANATION))) now := by
  refine ⟨h, fun created s₁ hcreate => ?_⟩
  have h₁ := h.step .create hcreate
  cases created with
  | error e => exact ⟨h₁, nofun⟩
  | ok _ =>
    refine ⟨h₁, fun written s₂ hwrite => ?_⟩
    have h₂ := h₁.step (.write _) hwrite
    cases written with
    | error e => exact ⟨h₂, nofun⟩
    | ok _ =>
      refine ⟨h₂, fun synced s₃ hsync => ⟨h₂.step .sync hsync, fun _ => ?_⟩⟩
      have whole : s₂.1.partialFile = some (.text (RECORD ++ "\n" ++ EXPLANATION)) :=
        congrArg Directory.partialFile hwrite.1.1
      have unchanged : s₃.1 = s₂.1 := hsync.1.1
      rw [unchanged]
      exact whole

/-- A record in the directory was there before, or was renamed there. -/
def NotAhead (s : Directory) (now : Directory × List (Exchange Request Reply)) : Prop :=
  ∀ left, now.1.crash left → left.markerState = .recorded → s.markerState = .recorded ∨ Renamed now.2

theorem InProgress.notAhead {s : Directory} {now : Directory × List (Exchange Request Reply)} (h : InProgress s now) :
    NotAhead s now := by
  intro left hcrash recorded
  left
  rw [← h.markerState]
  exact hcrash recorded

/-- **Recording the marker is all or nothing, but for a failed rename.** `state` answers what the
directory holds. Whatever the directory held before, an `Ok` means a record and no partial file;
an error means the marker state of before, and a partial file exactly when the error is the
rename's. Cut short after any step, and whatever a crash may undo, the directory holds a record
only if it did before or the rename took place. -/
theorem record_is_all_or_nothing_iff_renamed (s : Directory) :
    (∀ now : Directory, state.Always Directory.unhindered (· = now) (fun answer _ => answer = now.markerState) now) ∧
    record.Always (logged Directory.unhindered) (NotAhead s)
      (fun result now =>
        match result with
        | .ok _ => now.1.markerState = .recorded ∧ now.1.partialFile = none
        | .error e => now.1.markerState = s.markerState ∧ (now.1.partialFile = none ↔ ¬ RenameFailed e now.2))
      (s, []) := by
  refine ⟨state_spec, ?_⟩
  have start : InProgress s (s, []) := ⟨rfl, fun _ => List.not_mem_nil⟩
  apply Always.bind
  refine ((writePartial_spec start).ends).mono (fun _ h => h.notAhead) ?_
  rintro written now ⟨h, whole⟩
  cases written with
  | error e =>
    refine ⟨h.notAhead, fun removed after hs => ?_⟩
    have h' := h.step .remove hs
    refine ⟨h'.notAhead, h'.markerState, ?_⟩
    exact iff_of_true (Directory.unhindered_removePartial hs.1) (h'.noRename _)
  | ok _ =>
    refine ⟨h.notAhead, fun renamed after hs => ?_⟩
    obtain ⟨⟨hs, -⟩, htr⟩ := hs
    cases renamed with
    | ok _ =>
      obtain ⟨-, hafter⟩ := hs
      have hrenamed : Renamed after.2 := by
        rw [Renamed, htr]
        simp
      refine ⟨fun _ _ _ => .inr hrenamed, ?_, ?_⟩
      · rw [hafter, Directory.markerState, whole rfl]
        exact MarkerState.ofText_record
      · rw [hafter]
    | error e =>
      have unchanged : after.1 = now.1 := hs
      have hfailed : RenameFailed e after.2 := by
        rw [RenameFailed, htr]
        simp
      have same : after.1.markerState = s.markerState := by rw [unchanged, h.markerState]
      refine ⟨?_, same, ?_⟩
      · intro left hcrash recorded
        left
        rw [← same]
        exact hcrash recorded
      · rw [unchanged, whole rfl]
        exact iff_of_false (Option.some_ne_none _) (not_not_intro hfailed)

/-- In a directory that was never checked, the rename refused: `record` fails and the complete
partial file is still there. -/
theorem refused_rename_leaves_the_partial_file :
    ¬ record.Always Directory.unhindered (fun _ => True)
      (fun result now =>
        ¬ (result = .error "Permission denied" ∧ now.markerState = .missing ∧
            now.partialFile = some (.text (RECORD ++ "\n" ++ EXPLANATION))))
      ⟨true, none, none⟩ := by
  intro h
  have created := h.2 (.ok ()) ⟨true, none, some (.text "")⟩ ⟨rfl, trivial⟩
  have written := created.2 (.ok ()) ⟨true, none, some (.text (RECORD ++ "\n" ++ EXPLANATION))⟩ ⟨rfl, trivial⟩
  have synced := written.2 (.ok ()) _ ⟨rfl, trivial⟩
  have refused := synced.2 (.error "Permission denied") _ ⟨rfl, trivial⟩
  exact refused.2 ⟨rfl, rfl, rfl⟩

end Marker

end EmbeddedMongo.Repair
