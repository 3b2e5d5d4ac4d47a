import EmbeddedMongo.Conc.Trace

/-!
# Dialogues that also say what they do

A program that writes a log between its requests is a dialogue over requests and lines, where a
line has no answer. `mute` forgets the lines: what is proved of the silent program holds of what
the speaking one exchanges with its server (`Traces.loud`).
-/

namespace Conc.Dialogue

variable {Q L α β : Type} {R : Q → Type}

/-- Requests are answered, lines are not. -/
abbrev Heard (R : Q → Type) (L : Type) : Q ⊕ L → Type
  | .inl q => R q
  | .inr _ => Unit

/-- A dialogue that says nothing. -/
def silent (d : Dialogue Q R α) : Dialogue (Q ⊕ L) (Heard R L) α := d.via Sum.inl fun _ r => r

/-- Says a line and goes on. -/
def say (line : L) (d : Dialogue (Q ⊕ L) (Heard R L) α) : Dialogue (Q ⊕ L) (Heard R L) α :=
  .ask (.inr line) fun _ => d

/-- Several lines in a row. -/
def sayAll (lines : List L) (d : Dialogue (Q ⊕ L) (Heard R L) α) : Dialogue (Q ⊕ L) (Heard R L) α :=
  lines.foldr say d

/-- The dialogue without its lines. -/
def mute : Dialogue (Q ⊕ L) (Heard R L) α → Dialogue Q R α
  | .ret a => .ret a
  | .ask (.inl q) next => .ask q fun r => (next r).mute
  | .ask (.inr _) next => (next ()).mute

@[simp] theorem mute_ret (a : α) : (ret a : Dialogue (Q ⊕ L) (Heard R L) α).mute = ret a := rfl

@[simp] theorem mute_say (line : L) (d : Dialogue (Q ⊕ L) (Heard R L) α) : (say line d).mute = d.mute := rfl

/-- Lines leave the program alone. -/
@[simp] theorem mute_sayAll (lines : List L) (d : Dialogue (Q ⊕ L) (Heard R L) α) : (sayAll lines d).mute = d.mute := by
  induction lines with
  | nil => rfl
  | cons line lines ih => exact ih

/-- A program that says nothing is not changed by being heard. -/
@[simp] theorem mute_silent (d : Dialogue Q R α) : (silent d : Dialogue (Q ⊕ L) (Heard R L) α).mute = d := by
  induction d with
  | ret a => rfl
  | ask q next ih => exact ask_congr ih

/-- Muting goes part by part. -/
@[simp] theorem mute_bind (d : Dialogue (Q ⊕ L) (Heard R L) α) (f : α → Dialogue (Q ⊕ L) (Heard R L) β) :
    (d.bind f).mute = d.mute.bind fun a => (f a).mute := by
  induction d with
  | ret a => rfl
  | ask q next ih =>
    cases q with
    | inl q => exact ask_congr ih
    | inr line => exact ih ()

/-- A request and its reply, among the lines. -/
def asked (e : Exchange Q R) : Exchange (Q ⊕ L) (Heard R L) := ⟨.inl e.1, e.2⟩

/-- A line that was said. -/
def said (line : L) : Exchange (Q ⊕ L) (Heard R L) := ⟨.inr line, ()⟩

/-- What was exchanged with the server. -/
def exchanged : List (Exchange (Q ⊕ L) (Heard R L)) → List (Exchange Q R)
  | [] => []
  | ⟨.inl q, r⟩ :: tr => ⟨q, r⟩ :: exchanged tr
  | ⟨.inr _, _⟩ :: tr => exchanged tr

/-- The requests of two stretches are those of each. -/
@[simp] theorem exchanged_append (tr tr' : List (Exchange (Q ⊕ L) (Heard R L))) :
    exchanged (tr ++ tr') = exchanged tr ++ exchanged tr' := by
  induction tr with
  | nil => rfl
  | cons e tr ih =>
    obtain ⟨q, r⟩ := e
    cases q with
    | inl q => exact congrArg (⟨q, r⟩ :: ·) ih
    | inr line => exact ih

theorem asked_injective : Function.Injective (asked : Exchange Q R → Exchange (Q ⊕ L) (Heard R L)) := by
  rintro ⟨q, r⟩ ⟨q', r'⟩ h
  cases h
  rfl

theorem asked_ne_said (e : Exchange Q R) (line : L) : (asked e : Exchange (Q ⊕ L) (Heard R L)) ≠ said line := by
  intro h
  cases h

/-- What is proved of the silent program holds of what the speaking one exchanges. -/
theorem Traces.loud {d : Dialogue (Q ⊕ L) (Heard R L) α} {I : List (Exchange Q R) → Prop}
    {Post : α → List (Exchange Q R) → Prop} (h : d.mute.Traces I Post) :
    d.Traces (fun tr => I (exchanged tr)) fun a tr => Post a (exchanged tr) := by
  induction d generalizing I Post with
  | ret a => exact h
  | ask q next ih =>
    cases q with
    | inl q => exact ⟨h.1, fun r => ih r (h.2 r)⟩
    | inr line => exact ⟨h.here, fun r => ih r h⟩

/-- Two accounts of one program hold together. -/
theorem Traces.and {d : Dialogue Q R α} {I I' : List (Exchange Q R) → Prop} {Post Post' : α → List (Exchange Q R) → Prop}
    (h : d.Traces I Post) (h' : d.Traces I' Post') :
    d.Traces (fun tr => I tr ∧ I' tr) fun a tr => Post a tr ∧ Post' a tr := by
  induction d generalizing I I' Post Post' with
  | ret a => exact ⟨⟨h.1, h'.1⟩, h.2, h'.2⟩
  | ask q next ih => exact ⟨⟨h.1, h'.1⟩, fun r => ih r (h.2 r) (h'.2 r)⟩

/-- Lines, one after the other. -/
theorem Traces.sayAll {lines : List L} {d : Dialogue (Q ⊕ L) (Heard R L) α}
    {I : List (Exchange (Q ⊕ L) (Heard R L)) → Prop} {Post : α → List (Exchange (Q ⊕ L) (Heard R L)) → Prop}
    (start : ∀ part, part <+: lines → I (part.map said))
    (h : d.Traces (fun tr => I (lines.map said ++ tr)) fun a tr => Post a (lines.map said ++ tr)) :
    (sayAll lines d).Traces I Post := by
  induction lines generalizing I Post with
  | nil => exact h
  | cons line lines ih =>
    refine ⟨start [] List.nil_prefix, fun _ => ih ?_ h⟩
    intro part hpart
    exact start (line :: part) ((List.prefix_cons_inj line).2 hpart)

end Conc.Dialogue
