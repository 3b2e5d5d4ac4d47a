import EmbeddedMongo.Conc.Tally

/-!
# Resources that counted references share

`Arc` is the cell counted references point to: how many there are, and whether the value is still
in it. Whoever gives up the last reference has the value, and drops it or keeps it. `Arc.Held` ties
the count to the number of references there in fact are.

`Owned` is such a cell around a resource that has to be closed, through a pointer that is cleared
as it is closed. On its way into the cell and out of it again the resource is loose: in the hands
of one party. `Owned.Accounted` says that it is open for exactly as long as there are references or
a party has it loose, and is closed once.

`pointing` counts the parties that point to one of several such cells.
-/

namespace Conc

/-- A reference count, and whether its value is still there. -/
structure Arc where
  strong : Nat
  /-- The value has not been handed to the last reference yet. -/
  full : Bool
  deriving DecidableEq, Repr

namespace Arc

/-- Before there is a reference. -/
def unmade : Arc := ⟨0, false⟩

/-- `Arc::new` -/
def new : Arc := ⟨1, true⟩

/-- `Arc::clone` -/
def clone (a : Arc) : Arc := { a with strong := a.strong + 1 }

/-- The reference that is dropped is the last one. -/
def isLast (a : Arc) : Bool := a.strong == 1

/-- One reference is given up. The value goes with the last, as it does in `try_unwrap`. -/
def release (a : Arc) : Arc where
  strong := a.strong - 1
  full := a.full && !a.isLast

/-- `refs` references point here, and the value is here for as long as one does. -/
structure Held (a : Arc) (refs : Nat) : Prop where
  strong : a.strong = refs
  full : a.full = decide (0 < refs)

variable {a : Arc} {refs : Nat}

theorem held_unmade : Held unmade 0 := ⟨rfl, rfl⟩

theorem held_new : Held new 1 := ⟨rfl, rfl⟩

/-- A clone is one more reference. -/
theorem Held.clone (h : Held a refs) (pos : 0 < refs) : Held a.clone (refs + 1) := by
  refine ⟨congrArg (· + 1) h.strong, ?_⟩
  show a.full = _
  rw [h.full]
  simp [pos]

/-- The last reference is known as such. -/
theorem Held.isLast (h : Held a refs) : a.isLast = decide (refs = 1) := by
  unfold Arc.isLast
  rw [h.strong]
  rfl

/-- A reference that is dropped is one fewer. -/
theorem Held.release (h : Held a refs) : Held a.release (refs - 1) := by
  refine ⟨congrArg (· - 1) h.strong, ?_⟩
  show (a.full && !a.isLast) = _
  rw [h.full, h.isLast]
  by_cases hone : refs = 1
  · simp [hone]
  · simp only [hone, decide_false, Bool.not_false, Bool.and_true, decide_eq_decide]
    omega

end Arc

/-- A pointer to a resource: whether it is set, and how often the resource was closed through it. -/
structure Pointer where
  set : Bool
  closes : Nat
  deriving DecidableEq, Repr

namespace Pointer

def opened : Pointer := ⟨true, 0⟩

/-- The pointer is cleared, and what it pointed to closed. -/
def close (p : Pointer) : Pointer := if p.set = true then ⟨false, p.closes + 1⟩ else p

/-- A second close finds nothing. -/
theorem close_close (p : Pointer) : p.close.close = p.close := by
  unfold close
  split <;> simp_all

end Pointer

/-- A counted reference to something native. -/
structure Owned where
  arc : Arc
  native : Pointer
  deriving DecidableEq, Repr

namespace Owned

/-- Another reference to it. -/
def clone (o : Owned) : Owned := { o with arc := o.arc.clone }

/-- One reference less. -/
def release (o : Owned) : Owned := { o with arc := o.arc.release }

/-- The native thing is closed. -/
def close (o : Owned) : Owned := { o with native := o.native.close }

/-- `refs` references point to the resource, and `loose` parties have it in their hands. -/
structure Accounted (o : Owned) (refs loose : Nat) : Prop where
  held : o.arc.Held refs
  set : o.native.set.toNat = o.arc.full.toNat + loose
  once : o.native.closes + o.native.set.toNat = 1

variable {o : Owned} {refs loose : Nat}

theorem accounted_new : Accounted ⟨.new, .opened⟩ 1 0 := ⟨Arc.held_new, rfl, rfl⟩

theorem accounted_loose : Accounted ⟨.unmade, .opened⟩ 0 1 := ⟨Arc.held_unmade, rfl, rfl⟩

namespace Accounted

theorem toNat_full (h : Accounted o refs loose) : o.arc.full.toNat = if 0 < refs then 1 else 0 := by
  rw [h.held.full]
  by_cases hpos : 0 < refs <;> simp [hpos]

/-- What was loose is put into a cell of its own. -/
theorem wrap (h : Accounted o 0 (loose + 1)) : Accounted { o with arc := .new } 1 loose := by
  have hset := h.set
  have hfull := h.toNat_full
  refine ⟨Arc.held_new, ?_, h.once⟩
  simp only [Nat.lt_irrefl, if_false] at hfull
  simp only [Arc.new, Bool.toNat_true]
  omega

theorem clone (h : Accounted o refs loose) (pos : 0 < refs) : Accounted o.clone (refs + 1) loose :=
  ⟨h.held.clone pos, h.set, h.once⟩

/-- The last reference leaves the resource loose. -/
theorem release (h : Accounted o refs loose) (pos : 0 < refs) :
    Accounted o.release (refs - 1) (loose + if o.arc.isLast = true then 1 else 0) := by
  have hheld := h.held.release
  have hset := h.set
  have hfull := h.toNat_full
  refine ⟨hheld, ?_, h.once⟩
  show o.native.set.toNat = o.arc.release.full.toNat + _
  rw [hheld.full, h.held.isLast]
  rw [if_pos pos] at hfull
  by_cases hone : refs = 1
  · simp only [hone, Nat.sub_self, Nat.lt_irrefl, decide_false, decide_true, Bool.toNat_false, if_true]
    omega
  · have hpos : 0 < refs - 1 := by omega
    simp only [hone, hpos, decide_true, decide_false, Bool.toNat_true, Bool.false_eq_true, if_false]
    omega

/-- Something still has it, so it is open. -/
theorem isSet (h : Accounted o refs loose) (pos : 0 < refs + loose) : o.native.set = true := by
  have hset := h.set
  have hfull := h.toNat_full
  cases hs : o.native.set with
  | true => rfl
  | false =>
    rw [hs, Bool.toNat_false] at hset
    split at hfull <;> omega

/-- What one party has in its hands nobody else has. -/
theorem alone (h : Accounted o refs (loose + 1)) : refs = 0 ∧ loose = 0 ∧ o.arc.full = false := by
  have hset := h.set
  have hfull := h.toNat_full
  have hle := Bool.toNat_le o.native.set
  have hrefs : refs = 0 := by
    split at hfull <;> omega
  refine ⟨hrefs, by omega, ?_⟩
  rw [h.held.full, hrefs]
  rfl

/-- The party that has it loose closes it. -/
theorem close (h : Accounted o refs (loose + 1)) : Accounted o.close refs loose := by
  have hset := h.set
  have honce := h.once
  have hs := h.isSet (by omega)
  rw [hs, Bool.toNat_true] at hset honce
  refine ⟨h.held, ?_, ?_⟩
  · simp only [Owned.close, Pointer.close, hs, if_true, Bool.toNat_false]
    omega
  · simp only [Owned.close, Pointer.close, hs, if_true, Bool.toNat_false]
    omega

/-- Nothing is closed twice. -/
theorem closes_le (h : Accounted o refs loose) : o.native.closes ≤ 1 := by
  have := h.once
  omega

/-- Nobody has it any more, so it has been closed. -/
theorem closed (h : Accounted o 0 0) : o.native.set = false ∧ o.native.closes = 1 := by
  have hset := h.set
  have honce := h.once
  have hfull := h.toNat_full
  simp only [Nat.lt_irrefl, if_false] at hfull
  rw [hfull] at hset
  cases hs : o.native.set with
  | true => simp [hs] at hset
  | false =>
    rw [hs, Bool.toNat_false] at honce
    exact ⟨rfl, by omega⟩

end Accounted

end Owned

/-! ## Who points where -/

section Pointing

variable {α : Type} {target : α → Option Nat} {l : List α} {i x : Nat} {a b : α}

/-- How many parties point to `x`. -/
def pointing (target : α → Option Nat) (x : Nat) (l : List α) : Nat := tally (fun a => if target a = some x then 1 else 0) l

theorem pointing_append (target : α → Option Nat) (x : Nat) (l : List α) (b : α) :
    pointing target x (l ++ [b]) = pointing target x l + if target b = some x then 1 else 0 := by
  simp [pointing]

/-- One entry of the list changes where it points. -/
theorem pointing_set (h : l[i]? = some a) (target : α → Option Nat) (x : Nat) (b : α) :
    pointing target x (l.set i b) + (if target a = some x then 1 else 0) = pointing target x l + if target b = some x then 1 else 0 :=
  tally_set (fun a => if target a = some x then 1 else 0) h b

/-- A party that moves, and points where it did. -/
theorem pointing_set_same (h : l[i]? = some a) {target : α → Option Nat} (b : α) (same : target b = target a) (x : Nat) :
    pointing target x (l.set i b) = pointing target x l := by
  have := pointing_set h target x b
  rw [same] at this
  omega

/-- Something that is pointed at has a count. -/
theorem pointing_pos (h : l[i]? = some a) (ha : target a = some x) : 0 < pointing target x l := by
  have := le_tally (fun a => if target a = some x then 1 else 0) h
  simp only [ha, if_true] at this
  exact this

/-- What nobody points at has none. -/
theorem pointing_eq_zero (h : ∀ a ∈ l, target a ≠ some x) : pointing target x l = 0 := by
  apply tally_eq_zero.2
  intro a ha
  rw [if_neg (h a ha)]

end Pointing

end Conc
