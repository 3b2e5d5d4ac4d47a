import EmbeddedMongo.Build.Cache

/-!
# What racing builds leave in the cache

A destination only ever changes to bytes that verified, or to nothing, and the second only
by a build that found it damaged before. So an entry that verifies stays for ever unless
a build that looked at what was there before it is still about to drop it: nothing between
`verify` and `remove_file` looks again. A directory that starts without damaged entries has
no such build in any run, and what one build returned is there for every later one.
-/

namespace EmbeddedMongo.Cache

open Conc

variable {sha256 : List UInt8 → String} {m : Manifest} {store : String → Option File} {s s' : State} {a : Label}
  {e : Prebuilt} {slot slot' : Option File} {fault : Bool} {now : Nat} {b b' : Build}

/-! ## One step -/

/-- What a build does to its destination. -/
theorem Move.slot_cases (h : Move sha256 fault now slot b slot' b') :
    slot' = slot ∨ (b.place = .dropping ∧ slot' = removeFile fault slot) ∨
      (b.place = .installing ∧ ∃ t, b.temporary = some t ∧ slot' = some t.file) := by
  cases h with
  | drop hp => exact .inr (.inl ⟨hp, rfl⟩)
  | rename hp ht => exact .inr (.inr ⟨hp, _, ht, rfl⟩)
  | _ => exact .inl rfl

theorem Move.entry (h : Move sha256 fault now slot b slot' b') : b'.entry = b.entry := by
  cases h <;> rfl

/-! What took a build to a place. -/

theorem onCached_cases (verdict : Option Problem) :
    (verdict = none ∧ onCached verdict = .returned) ∨ (verdict = some .missing ∧ onCached verdict = .cold) ∨
      (∃ problem, problem ≠ .missing ∧ verdict = some problem ∧ onCached verdict = .dropping) := by
  cases verdict with
  | none => simp [onCached]
  | some problem => cases problem <;> simp [onCached]

theorem onFetched_cases (verdict : Option Problem) :
    (verdict = none ∧ onFetched verdict = .installing) ∨
      (verdict = some .missing ∧ onFetched verdict = .panicked .vanished) ∨
      (∃ why, onFetched verdict = .discarding why) := by
  cases verdict with
  | none => simp [onFetched]
  | some problem => cases problem <;> simp [onFetched]

/-- Its size was right. -/
theorem Move.of_checkingDigest (h : Move sha256 fault now slot b slot' b') (hp : b'.place = .checkingDigest) :
    b'.temporary = b.temporary ∧ checkSize b.entry (look fault b.download) = none := by
  cases h <;> grind [onCached_cases, onFetched_cases]

/-- Its digest was right too. -/
theorem Move.of_installing (h : Move sha256 fault now slot b slot' b') (hp : b'.place = .installing) :
    b.place = .checkingDigest ∧ b'.temporary = b.temporary ∧
      checkDigest sha256 b.entry (readAll fault b.download) = none := by
  cases h <;> grind [onCached_cases, onFetched_cases]

/-- What is dropped was found damaged. -/
theorem Move.of_dropping (h : Move sha256 fault now slot b slot' b') (hp : b'.place = .dropping) :
    ∃ problem, problem ≠ .missing ∧ (checkSize b.entry (look fault slot) = some problem ∨
      checkDigest sha256 b.entry (readAll fault slot) = some problem) := by
  cases h <;> grind [onCached_cases, onFetched_cases]

/-- The build has the entry: it returned, or is about to. -/
def Place.has (p : Place) : Prop := p = .returned ∨ p = .finishing true

/-- Whoever has the entry read it whole, had it before, or installed it. -/
theorem Move.of_has (h : Move sha256 fault now slot b slot' b') (hp : b'.place.has) :
    (slot' = slot ∧ checkDigest sha256 b.entry (readAll fault slot) = none) ∨ (slot' = slot ∧ b.place.has) ∨
      (b.place = .installing ∧ ∃ t, b.temporary = some t ∧ slot' = some t.file) := by
  unfold Place.has at hp ⊢
  cases h <;> grind [onCached_cases, onFetched_cases, Option.isNone_iff_eq_none]

/-- What holds of every build holds of every one after a step, if it holds of a new one and is
kept by a build's own moves, through its sweep and by the loss of its temporary. -/
theorem Step.forall_builds {I : Build → Prop} (h : Step sha256 m s a s') (hI : ∀ b ∈ s.builds, I b)
    (new : ∀ entry, m.published entry → I ⟨entry, .looking, none⟩)
    (move : ∀ i fault b slot' b', Move sha256 fault s.now (s.store b.entry.sha256) b slot' b' →
      s'.store b.entry.sha256 = slot' → a = .ofMove i fault b'.place → I b → I b')
    (sweep : ∀ (b : Build) p, b.place.sweeps = true → p.sweeps = true → I b → I { b with place := p })
    (lost : ∀ b : Build, I b → I { b with temporary := none }) : ∀ b ∈ s'.builds, I b := by
  have hsweep : ∀ {i : Nat} {b : Build} {p : Place}, s.builds[i]? = some b → b.place.sweeps = true →
      p.sweeps = true → ∀ b' ∈ s.builds.set i { b with place := p }, I b' := by
    intro i b p hi hb hp
    exact forall_mem_set hI (sweep b p hb hp (hI b (List.mem_of_getElem? hi)))
  cases h with
  | start hpub =>
    intro b hb
    rcases List.mem_append.1 hb with hb | hb
    · exact hI b hb
    · rw [List.mem_singleton.1 hb]
      exact new _ hpub
  | move hi hmove =>
    exact forall_mem_set hI (move _ _ _ _ _ hmove (by simp [State.move]) rfl (hI _ (List.mem_of_getElem? hi)))
  | list hi hp => exact hsweep hi (by rw [hp]; rfl) rfl
  | age hi hp =>
    refine hsweep hi (by rw [hp]; rfl) ?_
    unfold onAge
    split <;> rfl
  | @sweep i j b fault entries hi hp =>
    have hset := hsweep hi (by rw [hp]; rfl) (p := .sweeping entries) rfl
    intro b' hb'
    cases fault with
    | true => exact hset b' hb'
    | false =>
      obtain ⟨k, hk⟩ := List.getElem?_of_mem hb'
      simp only [unlink, Bool.false_eq_true, if_false, List.getElem?_modify] at hk
      split at hk
      · obtain ⟨b₀, hb₀, rfl⟩ := Option.map_eq_some_iff.1 hk
        exact lost b₀ (hset b₀ (List.mem_of_getElem? hb₀))
      · exact hset b' (List.mem_of_getElem? (by simpa using hk))
  | clock => exact hI

/-! ## What a build knows of its download -/

/-- What a build has checked of its temporary holds of the temporary, as long as there is one. -/
structure Build.Sound (sha256 : List UInt8 → String) (m : Manifest) (b : Build) : Prop where
  published : m.published b.entry
  size : b.place = .checkingDigest → ∀ t, b.temporary = some t → checkSize b.entry (some t.file) = none
  verified : b.place = .installing → ∀ t, b.temporary = some t → Verified sha256 b.entry (some t.file)

theorem Build.download_of {t : Temporary} (h : b.temporary = some t) : b.download = some t.file := by
  simp [Build.download, h]

/-- The download that is installed is the one both looks were at: nobody but its own
downloader writes a temporary, and that has ended. -/
theorem Move.sound (h : Move sha256 fault now slot b slot' b') (hs : b.Sound sha256 m) : b'.Sound sha256 m := by
  refine ⟨h.entry ▸ hs.published, fun hp t ht => ?_, fun hp t ht => ?_⟩
  · obtain ⟨htemp, hcheck⟩ := h.of_checkingDigest hp
    rw [h.entry]
    cases fault with
    | true => cases hcheck
    | false => rwa [Build.download_of (htemp ▸ ht)] at hcheck
  · obtain ⟨hp, htemp, hcheck⟩ := h.of_installing hp
    rw [htemp] at ht
    rw [h.entry]
    cases fault with
    | true => cases hcheck
    | false =>
      rw [Build.download_of ht] at hcheck
      exact verified_regular.2 ⟨checkSize_regular.1 (hs.size hp t ht), checkDigest_some.1 hcheck⟩

theorem Build.Sound.ofSweep (hs : b.Sound sha256 m) {p : Place} (hp : p.sweeps = true) :
    ({ b with place := p } : Build).Sound sha256 m := by
  refine ⟨hs.published, fun h => ?_, fun h => ?_⟩ <;>
  · rw [show p = _ from h] at hp
    cases hp

theorem Build.Sound.lost (hs : b.Sound sha256 m) : ({ b with temporary := none } : Build).Sound sha256 m :=
  ⟨hs.published, fun _ _ h => (by cases h), fun _ _ h => (by cases h)⟩

theorem sound_new (h : m.published e) : (⟨e, .looking, none⟩ : Build).Sound sha256 m :=
  ⟨h, fun h => (by cases h), fun h => (by cases h)⟩

/-- So every build of every run knows its download. -/
theorem sound_of_reach (h : (sys sha256 m store).Reach s) : ∀ b ∈ s.builds, b.Sound sha256 m := by
  refine h.induct (I := fun s => ∀ b ∈ s.builds, b.Sound sha256 m) ?_ ?_
  · rintro s ⟨-, hb⟩ b hmem
    rw [hb] at hmem
    cases hmem
  · intro s a s' _ hI hs
    exact hs.forall_builds hI (fun _ => sound_new) (fun _ _ _ _ _ hm _ _ => hm.sound) (fun _ _ _ hp hb => hb.ofSweep hp)
      (fun _ => Build.Sound.lost)

/-! ## The destinations -/

/-- A build has found the entry damaged and is about to remove whatever is there by then. -/
def Dropper (e : Prebuilt) (s : State) : Prop :=
  ∃ b ∈ s.builds, b.entry.sha256 = e.sha256 ∧ b.place = .dropping

/-- **What a step does to a destination**: nothing, a removal by a build that found it damaged,
or an entry that verifies. -/
theorem Step.slot_cases (h : Step sha256 m s a s') (hs : ∀ b ∈ s.builds, b.Sound sha256 m) (he : m.published e) :
    s'.store e.sha256 = s.store e.sha256 ∨
      (Dropper e s ∧ ∃ fault, s'.store e.sha256 = removeFile fault (s.store e.sha256)) ∨
      Verified sha256 e (s'.store e.sha256) := by
  cases h with
  | @move i b b' slot' fault hi hmove =>
    have hb := hs b (List.mem_of_getElem? hi)
    by_cases heq : b.entry.sha256 = e.sha256
    · have hslot : (s.move i b b' slot').store e.sha256 = slot' := by simp [State.move, heq]
      rw [hslot]
      rcases hmove.slot_cases with hsame | ⟨hp, hdrop⟩ | ⟨hp, t, ht, hnew⟩
      · exact .inl (by rw [hsame, heq])
      · exact .inr (.inl ⟨⟨b, List.mem_of_getElem? hi, heq, hp⟩, fault, by rw [hdrop, heq]⟩)
      · exact .inr (.inr (hnew ▸ (hb.verified hp t ht).congr hb.published he heq))
    · exact .inl (Function.update_of_ne (Ne.symm heq) _ _)
  | _ => exact .inl rfl

/-- A file is removed or it is still there. -/
theorem removeFile_cases (fault : Bool) (slot : Option File) : removeFile fault slot = slot ∨ removeFile fault slot = none := by
  unfold removeFile
  split
  · exact .inl rfl
  · split
    · exact .inl rfl
    · exact .inr rfl

/-- A destination changes to nothing or to bytes that verify, whatever it started as. -/
theorem slot_of_reach (h : (sys sha256 m store).Reach s) (he : m.published e) :
    s.store e.sha256 = store e.sha256 ∨ s.store e.sha256 = none ∨ Verified sha256 e (s.store e.sha256) := by
  refine h.induct (I := fun s => s.store e.sha256 = store e.sha256 ∨ s.store e.sha256 = none ∨
    Verified sha256 e (s.store e.sha256)) ?_ ?_
  · rintro s ⟨hst, -⟩
    exact .inl (by rw [hst])
  · intro s a s' hr hI hs
    rcases Step.slot_cases hs (sound_of_reach hr) he with hsame | ⟨-, fault, hdrop⟩ | hv
    · rwa [hsame]
    · rcases removeFile_cases fault (s.store e.sha256) with hkeep | hgone
      · rwa [hdrop, hkeep]
      · exact .inr (.inl (hdrop.trans hgone))
    · exact .inr (.inr hv)

/-- A build that looks at an undamaged destination does not drop it. -/
theorem Move.not_dropping (h : Move sha256 fault now slot b slot' b') (hgood : slot = none ∨ Verified sha256 b.entry slot) :
    b'.place ≠ .dropping := by
  intro hp
  obtain ⟨problem, hne, hfound⟩ := h.of_dropping hp
  have hmissing : ∀ {p : Problem}, some p = some problem → p = .missing → False := by
    rintro p ⟨⟩ rfl
    exact hne rfl
  cases fault with
  | true => rcases hfound with hfound | hfound <;> exact hmissing hfound rfl
  | false =>
    rcases hgood with rfl | hv
    · rcases hfound with hfound | hfound <;> exact hmissing hfound rfl
    · have hsize := hv.checkSize
      have hdigest := hv.checkDigest
      rcases hfound with hfound | hfound
      · exact absurd (hsize.symm.trans hfound) (by simp)
      · exact absurd (hdigest.symm.trans hfound) (by simp)

/-- An entry nobody is about to drop. -/
structure Kept (sha256 : List UInt8 → String) (e : Prebuilt) (s : State) : Prop where
  verified : Verified sha256 e (s.store e.sha256)
  safe : ¬ Dropper e s

/-- No build becomes a dropper of an undamaged entry. -/
theorem Step.no_dropper (h : Step sha256 m s a s') (hs : ∀ b ∈ s.builds, b.Sound sha256 m) (he : m.published e)
    (hgood : s.store e.sha256 = none ∨ Verified sha256 e (s.store e.sha256)) (hsafe : ¬ Dropper e s) : ¬ Dropper e s' := by
  have hall : ∀ b ∈ s'.builds, b.Sound sha256 m ∧ (b.entry.sha256 = e.sha256 → b.place ≠ .dropping) := by
    refine h.forall_builds (fun b hb => ⟨hs b hb, fun heq hp => hsafe ⟨b, hb, heq, hp⟩⟩) ?_ ?_ ?_ ?_
    · exact fun _ hpub => ⟨sound_new hpub, fun _ hp => (by cases hp)⟩
    · intro i fault b slot' b' hmove _ _ hb
      refine ⟨hmove.sound hb.1, fun heq => hmove.not_dropping ?_⟩
      rw [hmove.entry] at heq
      rw [heq]
      exact hgood.imp_right fun hv => hv.congr he hb.1.published heq.symm
    · intro b p _ hp hb
      refine ⟨hb.1.ofSweep hp, fun _ hp' => ?_⟩
      rw [show p = _ from hp'] at hp
      cases hp
    · exact fun b hb => ⟨hb.1.lost, hb.2⟩
  rintro ⟨b, hb, heq, hp⟩
  exact (hall b hb).2 heq hp

/-- Nothing touches a kept entry. -/
theorem Kept.step (h : Kept sha256 e s) (hr : (sys sha256 m store).Reach s) (he : m.published e)
    (hs : Step sha256 m s a s') : Kept sha256 e s' := by
  refine ⟨?_, hs.no_dropper (sound_of_reach hr) he (.inr h.verified) h.safe⟩
  rcases hs.slot_cases (sound_of_reach hr) he with hsame | ⟨hdrop, -⟩ | hv
  · rw [hsame]
    exact h.verified
  · exact absurd hdrop h.safe
  · exact hv

/-- **An entry stays exactly if it verifies and nobody is about to drop it.** The other half: a
build about to drop it drops what is there now, not what it saw. -/
theorem kept_iff (hr : (sys sha256 m store).Reach s) (he : m.published e) :
    (∀ s', (sys sha256 m store).Steps s s' → Verified sha256 e (s'.store e.sha256)) ↔ Kept sha256 e s := by
  constructor
  · intro h
    refine ⟨h s (.refl s), ?_⟩
    rintro ⟨b, hb, heq, hp⟩
    obtain ⟨i, hi⟩ := List.getElem?_of_mem hb
    have hdrop := h _ (.step (.refl s) (Step.move hi (Move.drop hp : Move sha256 false _ _ _ _ _)))
    obtain ⟨bytes, hbytes, -⟩ := verified_iff.1 (h s (.refl s))
    simp [State.move, heq, hbytes, removeFile, verified_iff] at hdrop
  · intro h s' hs
    exact (hs.keep hr h fun s a s' hr h hs => Kept.step h hr he hs).verified

/-! ## A directory that starts undamaged -/

/-- The entry is absent or verifies, no build is about to drop it, and it is there for those that have it. -/
structure Undamaged (sha256 : List UInt8 → String) (e : Prebuilt) (s : State) : Prop where
  good : s.store e.sha256 = none ∨ Verified sha256 e (s.store e.sha256)
  safe : ¬ Dropper e s
  has : ∀ b ∈ s.builds, b.entry.sha256 = e.sha256 → b.place.has → Verified sha256 e (s.store e.sha256)

theorem checkDigest_absent : checkDigest sha256 e (readAll fault none) ≠ none := by
  cases fault <;> exact fun h => by cases h

/-- A directory without damage stays so. -/
theorem Undamaged.step (h : Undamaged sha256 e s) (hr : (sys sha256 m store).Reach s) (he : m.published e)
    (hs : Step sha256 m s a s') : Undamaged sha256 e s' := by
  have hsound := sound_of_reach hr
  have hslot := hs.slot_cases hsound he
  have hkeep : Verified sha256 e (s.store e.sha256) → Verified sha256 e (s'.store e.sha256) := by
    intro hv
    rcases hslot with hsame | ⟨hdrop, -⟩ | hv'
    · rwa [hsame]
    · exact absurd hdrop h.safe
    · exact hv'
  refine ⟨?_, hs.no_dropper hsound he h.good h.safe, ?_⟩
  · rcases hslot with hsame | ⟨hdrop, -⟩ | hv
    · rw [hsame]
      exact h.good
    · exact absurd hdrop h.safe
    · exact .inr hv
  · have hall : ∀ b ∈ s'.builds, b.Sound sha256 m ∧
        (b.entry.sha256 = e.sha256 → b.place.has → Verified sha256 e (s'.store e.sha256)) := by
      refine hs.forall_builds (fun b hb => ⟨hsound b hb, fun heq hp => hkeep (h.has b hb heq hp)⟩) ?_ ?_ ?_ ?_
      · exact fun _ hpub => ⟨sound_new hpub, fun _ hp => (by rcases hp with hp | hp <;> cases hp)⟩
      · intro i fault b slot' b' hmove hslot' _ hb
        refine ⟨hmove.sound hb.1, fun heq hp => ?_⟩
        rw [hmove.entry] at heq
        rw [heq] at hmove hslot'
        rcases hmove.of_has hp with ⟨-, hcheck⟩ | ⟨-, hp⟩ | ⟨hp, t, ht, hnew⟩
        · -- it read the entry, so there was one
          rcases h.good with habsent | hv
          · rw [habsent] at hcheck
            exact absurd hcheck checkDigest_absent
          · exact hkeep hv
        · exact hb.2 heq hp
        · rw [hslot', hnew]
          exact (hb.1.verified hp t ht).congr hb.1.published he heq
      · intro b p _ hp hb
        refine ⟨hb.1.ofSweep hp, fun _ hp' => ?_⟩
        rcases hp' with hp' | hp' <;>
        · rw [show p = _ from hp'] at hp
          cases hp
      · exact fun b hb => ⟨hb.1.lost, hb.2⟩
    exact fun b hb => (hall b hb).2

/-- A directory that starts without damage has none in any run. -/
theorem undamaged_of_reach (h : (sys sha256 m store).Reach s) (he : m.published e)
    (hgood : store e.sha256 = none ∨ Verified sha256 e (store e.sha256)) : Undamaged sha256 e s := by
  refine h.induct ?_ fun s a s' hr hI hs => Undamaged.step hI hr he hs
  rintro s ⟨hst, hb⟩
  refine ⟨by rwa [hst], ?_, ?_⟩
  · rintro ⟨b, hmem, -⟩
    rw [hb] at hmem
    cases hmem
  · intro b hmem
    rw [hb] at hmem
    cases hmem

/-- **A destination never holds bytes that did not verify**, but those it started with. It is kept
for ever exactly if it verifies and no build is about to drop it, and where the directory
started undamaged that is so of every entry a build has returned. -/
theorem racing_builds_keep_what_they_return (h : (sys sha256 m store).Reach s) (he : m.published e) :
    (s.store e.sha256 = store e.sha256 ∨ s.store e.sha256 = none ∨ Verified sha256 e (s.store e.sha256)) ∧
    ((∀ s', (sys sha256 m store).Steps s s' → Verified sha256 e (s'.store e.sha256)) ↔
      Verified sha256 e (s.store e.sha256) ∧ ∀ b ∈ s.builds, b.entry.sha256 = e.sha256 → b.place ≠ .dropping) ∧
    (store e.sha256 = none ∨ Verified sha256 e (store e.sha256) →
      ∀ b ∈ s.builds, b.entry = e → b.place = .returned →
        ∀ s', (sys sha256 m store).Steps s s' → Verified sha256 e (s'.store e.sha256)) := by
  refine ⟨slot_of_reach h he, (kept_iff h he).trans ?_, ?_⟩
  · constructor
    · exact fun hk => ⟨hk.verified, fun b hb heq hp => hk.safe ⟨b, hb, heq, hp⟩⟩
    · rintro ⟨hv, hsafe⟩
      exact ⟨hv, fun ⟨b, hb, heq, hp⟩ => hsafe b hb heq hp⟩
  · intro hgood b hb heq hp
    have hI := undamaged_of_reach h he hgood
    exact (kept_iff h he).2 ⟨hI.has b hb (by rw [heq]) (.inl hp), hI.safe⟩

/-- An entry of one byte, the only one published. -/
def oneByte : Prebuilt := ⟨"d", 1⟩

def onlyOneByte : Manifest := ⟨(· = oneByte), fun h h' _ => by rw [h, h']⟩

/-- The builds that want it, over a directory that has this much of it. -/
def race (now : Nat) (slot : Option File) (builds : List Build) : State :=
  ⟨Function.update (fun _ => none) "d" slot, builds, now⟩

/-- One build moves. -/
theorem race_step {builds : List Build} (i : Nat) (hi : builds[i]? = some b) (he : b.entry = oneByte)
    (hm : Move (fun _ => "d") fault now slot b slot' b') :
    Step (fun _ => "d") onlyOneByte (race now slot builds) (.ofMove i fault b'.place)
      (race now slot' (builds.set i b')) := by
  have hslot : (race now slot builds).store b.entry.sha256 = slot := by simp [race, he, oneByte]
  have hstep := Step.move (m := onlyOneByte) (s := race now slot builds) hi (by rw [hslot]; exact hm)
  simpa [State.move, race, he, oneByte] using hstep

/-- One build lists what there is. -/
theorem race_list {builds : List Build} (i : Nat) (entries : List Nat) (hi : builds[i]? = some b) (hp : b.place = .listing)
    (hall : ∀ j b', builds[j]? = some b' → b'.temporary ≠ none → j ∈ entries) :
    Step (fun _ => "d") onlyOneByte (race now slot builds) (.build i false)
      (race now slot (builds.set i { b with place := .sweeping entries })) :=
  Step.list hi hp fun j b' hj ht _ => hall j b' hj ht

/-- Two builds find the entry truncated to nothing. One drops it, downloads it and returns it; the other
has yet to drop what it found. -/
theorem returned_entry_may_still_be_dropped :
    let S := sys (fun _ => "d") onlyOneByte (race 0 (some (.regular [])) []).store
    ∃ s, S.Reach s ∧ (∃ b ∈ s.builds, b.entry = oneByte ∧ b.place = .returned) ∧
      Verified (fun _ => "d") oneByte (s.store oneByte.sha256) ∧
      ¬ ∀ s', S.Steps s s' → Verified (fun _ => "d") oneByte (s'.store oneByte.sha256) := by
  intro S
  have hstart : S.Reach (race 0 (some (.regular [])) [⟨oneByte, .looking, none⟩, ⟨oneByte, .looking, none⟩]) :=
    (System.Reach.next (S := S) (.init ⟨rfl, rfl⟩) (Step.start rfl)).next (Step.start rfl)
  have hfound : S.Reach (race 0 (some (.regular [])) [⟨oneByte, .dropping, none⟩, ⟨oneByte, .dropping, none⟩]) :=
    (hstart.next (race_step 0 rfl rfl (.metadata rfl : Move _ false _ _ _ _ _))).next
      (race_step 1 rfl rfl (.metadata rfl : Move _ false _ _ _ _ _))
  have hcold : S.Reach (race 0 none [⟨oneByte, .listing, none⟩, ⟨oneByte, .dropping, none⟩]) :=
    (hfound.next (race_step 0 rfl rfl (.drop rfl : Move _ false _ _ _ _ _))).next
      (race_step 0 rfl rfl (.createDirAll rfl : Move _ false _ _ _ _ _))
  have hswept : S.Reach (race 0 none [⟨oneByte, .sweeping [], none⟩, ⟨oneByte, .dropping, none⟩]) := by
    have hnone : ∀ b ∈ [(⟨oneByte, .listing, none⟩ : Build), ⟨oneByte, .dropping, none⟩], b.temporary = none := by
      simp
    refine hcold.next (race_list (b := ⟨oneByte, .listing, none⟩) 0 [] rfl rfl fun j b hj ht => ?_)
    exact absurd (hnone b (List.mem_of_getElem? hj)) ht
  have hfetched : S.Reach (race 0 none [⟨oneByte, .checking, some ⟨[0], 0⟩⟩, ⟨oneByte, .dropping, none⟩]) :=
    ((hswept.next (race_step 0 rfl rfl (.fetch rfl : Move _ false _ _ _ _ _))).next
      (race_step 0 rfl rfl (.write [0] rfl : Move _ false _ _ _ _ _))).next
      (race_step 0 rfl rfl (.fetched rfl : Move _ false _ _ _ _ _))
  have hchecked : S.Reach (race 0 none [⟨oneByte, .installing, some ⟨[0], 0⟩⟩, ⟨oneByte, .dropping, none⟩]) :=
    (hfetched.next (race_step 0 rfl rfl (.checkMetadata rfl : Move _ false _ _ _ _ _))).next
      (race_step 0 rfl rfl (.checkHash rfl : Move _ false _ _ _ _ _))
  have hreturned : S.Reach (race 0 (some (.regular [0])) [⟨oneByte, .returned, none⟩, ⟨oneByte, .dropping, none⟩]) :=
    hchecked.next (race_step 0 rfl rfl (.rename (t := ⟨[0], 0⟩) rfl rfl (by simp) : Move _ false _ _ _ _ _))
  refine ⟨_, hreturned, ⟨_, List.mem_cons_self, rfl, rfl⟩, rfl, fun hkept => ?_⟩
  have hsafe := ((racing_builds_keep_what_they_return hreturned rfl).2.1.1 hkept).2
  exact hsafe ⟨oneByte, .dropping, none⟩ (by simp [race]) rfl rfl

/-! ## The temporaries -/

/-- No system call of a build's own is at fault. -/
def Faultless (_ : State) : Label → Prop
  | .build _ fault => fault = false
  | _ => True

/-- And the clock is not set back, which would make a stale temporary look fresh. -/
def Smooth (s : State) : Label → Prop
  | .build _ fault => fault = false
  | .clock now => s.now ≤ now
  | _ => True

/-- The build may have a temporary. -/
def Place.holds : Place → Bool
  | .fetching | .checking | .checkingDigest | .discarding _ | .installing | .relooking | .rehashing | .finishing _ => true
  | _ => false

theorem Place.holds_of_sweeps {p : Place} (h : p.sweeps = true) : p.holds = false := by
  cases p <;> first | rfl | cases h

theorem Place.holds_of_over {p : Place} (h : p.over = true) : p.holds = false := by
  cases p <;> first | rfl | cases h

/-- A build that has a temporary is at work on it, or was killed. -/
def Build.Tidy (b : Build) : Prop := b.temporary ≠ none → b.place.holds = true ∨ b.place = .killed

/-- A download that is missing is not there. -/
theorem checkSize_download (h : checkSize b.entry (look false b.download) = some .missing) : b.temporary = none := by
  cases ht : b.temporary with
  | none => rfl
  | some t =>
    rw [Build.download_of ht] at h
    simp only [look, Bool.false_eq_true, if_false, Temporary.file, checkSize] at h
    split at h <;> cases h

theorem checkDigest_download (h : checkDigest sha256 b.entry (readAll false b.download) = some .missing) :
    b.temporary = none := by
  cases ht : b.temporary with
  | none => rfl
  | some t =>
    rw [Build.download_of ht] at h
    simp only [readAll, Bool.false_eq_true, if_false, Temporary.file, contents, checkDigest] at h
    split at h <;> cases h

/-- Every way out of `fetch_prebuilt` takes the temporary along, or renames it away, or found none. -/
theorem Move.tidy (h : Move sha256 false now slot b slot' b') (hb : b.Tidy) : b'.Tidy := by
  unfold Build.Tidy at hb ⊢
  cases h <;> grind [Place.holds, onCached_cases, onFetched_cases, checkSize_download, checkDigest_download]

/-- Without faults every build of a run is tidy. -/
theorem tidy_of_reach (h : (sys sha256 m store).ReachIf Faultless s) : ∀ b ∈ s.builds, b.Tidy := by
  refine h.induct (I := fun s => ∀ b ∈ s.builds, b.Tidy) ?_ ?_
  · rintro s ⟨-, hb⟩ b hmem
    rw [hb] at hmem
    cases hmem
  · intro s a s' _ hI hfaultless hs
    refine hs.forall_builds hI (fun _ _ h => absurd rfl h) ?_ ?_ (fun _ _ h => absurd rfl h)
    · intro i fault b slot' b' hmove _ ha hb
      by_cases hk : b'.place = .killed
      · exact fun _ => .inr hk
      · rw [ha, Label.ofMove, if_neg hk] at hfaultless
        obtain rfl : fault = false := hfaultless
        exact hmove.tidy hb
    · -- a build in its sweep has no temporary yet
      intro b p hp _ hb ht
      rcases hb ht with h | h
      · rw [Place.holds_of_sweeps hp] at h
        cases h
      · rw [h] at hp
        cases hp

/-- **What one step does to one build.** -/
theorem Step.build_cases (h : Step sha256 m s a s') {k : Nat} (hk : s.builds[k]? = some b) :
    ∃ b', s'.builds[k]? = some b' ∧
      (b' = b ∨ b' = { b with temporary := none } ∨
      (∃ fault slot', Move sha256 fault s.now (s.store b.entry.sha256) b slot' b') ∨
      (∃ fault entries, b.place = .listing ∧ a = .build k fault ∧ b'.place = .sweeping entries ∧
        ∀ j b', s.builds[j]? = some b' → b'.temporary ≠ none → fault = false → j ∈ entries) ∨
      (∃ fault j entries, b.place = .sweeping (j :: entries) ∧ a = .build k fault ∧ b'.place = onAge fault s j entries) ∨
      (∃ fault j entries, b.place = .removing j entries ∧ a = .build k fault ∧ b'.place = .sweeping entries ∧
        (fault = false → ∀ bj, s'.builds[j]? = some bj → bj.temporary = none))) := by
  -- a step of build `i` alone, which becomes `b₁`
  have own : ∀ {i : Nat} {b₀ : Build} (b₁ : Build) {P : Build → Prop}, s.builds[i]? = some b₀ → (k = i → b₀ = b → P b₁) →
      ∃ b', (s.builds.set i b₁)[k]? = some b' ∧ (b' = b ∨ P b') := by
    intro i b₀ b₁ P hi hP
    by_cases hik : i = k
    · subst hik
      obtain ⟨hlt, -⟩ := List.getElem?_eq_some_iff.1 hi
      exact ⟨b₁, List.getElem?_set_self hlt, .inr (hP rfl (Option.some.inj (hi.symm.trans hk)))⟩
    · exact ⟨b, by rw [List.getElem?_set_ne hik, hk], .inl rfl⟩
  cases h with
  | start => exact ⟨b, getElem?_append_of_eq_some hk, .inl rfl⟩
  | clock => exact ⟨b, hk, .inl rfl⟩
  | @move i b₀ b₁ slot' fault hi hmove =>
    refine own _ hi ?_
    rintro rfl rfl
    exact .inr (.inl ⟨fault, slot', hmove⟩)
  | @list i b₀ fault entries hi hp hall =>
    refine own _ hi ?_
    rintro rfl rfl
    exact .inr (.inr (.inl ⟨fault, entries, hp, rfl, rfl, hall⟩))
  | @age i j b₀ fault entries hi hp =>
    refine own _ hi ?_
    rintro rfl rfl
    exact .inr (.inr (.inr (.inl ⟨fault, j, entries, hp, rfl, rfl⟩)))
  | @sweep i j b₀ fault entries hi hp =>
    obtain ⟨b₁, hb₁, hcase⟩ := own { b₀ with place := .sweeping entries }
      (P := fun b' => b'.place = .sweeping entries ∧ k = i ∧ b.place = .removing j entries) hi
      (by rintro rfl rfl; exact ⟨rfl, rfl, hp⟩)
    have hgone : fault = false → ∀ bj, (unlink fault j (s.builds.set i { b₀ with place := .sweeping entries }))[j]? = some bj →
        bj.temporary = none := by
      rintro rfl bj hbj
      simp only [unlink, Bool.false_eq_true, if_false, List.getElem?_modify_eq] at hbj
      obtain ⟨b₂, -, rfl⟩ := Option.map_eq_some_iff.1 hbj
      rfl
    by_cases hunlink : fault = false ∧ j = k
    · obtain ⟨rfl, rfl⟩ := hunlink
      refine ⟨{ b₁ with temporary := none }, ?_, ?_⟩
      · simp only [unlink, Bool.false_eq_true, if_false, List.getElem?_modify_eq, hb₁]
        rfl
      · rcases hcase with rfl | ⟨hp', rfl, hb⟩
        · exact .inr (.inl rfl)
        · exact .inr (.inr (.inr (.inr (.inr ⟨false, _, entries, hb, rfl, hp', hgone⟩))))
    · refine ⟨b₁, ?_, ?_⟩
      · cases fault with
        | true => exact hb₁
        | false =>
          simp only [unlink, Bool.false_eq_true, if_false]
          rw [List.getElem?_modify_ne _ _ fun h => hunlink ⟨rfl, h⟩]
          exact hb₁
      · rcases hcase with rfl | ⟨hp', rfl, hb⟩
        · exact .inl rfl
        · exact .inr (.inr (.inr (.inr (.inr ⟨fault, _, entries, hb, rfl, hp', hgone⟩))))

/-- Entry `j` of the directory is still to come in the sweep the build is in, if it gets that far. -/
def Ahead (j : Nat) : Place → Prop
  | .listing | .killed => True
  | .sweeping entries => j ∈ entries
  | .removing k entries => j = k ∨ j ∈ entries
  | _ => False

theorem Ahead.place {j : Nat} {p : Place} (h : Ahead j p) : p.sweeps = true ∨ p = .killed := by
  cases p with
  | listing | sweeping | removing => exact .inl rfl
  | killed => exact .inr rfl
  | _ => exact absurd h id

/-- Nothing moves that is over. -/
theorem Move.not_over (h : Move sha256 fault now slot b slot' b') : b.place.over = false := by
  cases h <;> simp_all [Place.over]

/-- What is still to come in a sweep stays so through the build's other moves. -/
theorem Move.ahead {j : Nat} (h : Move sha256 fault now slot b slot' b') (ha : Ahead j b.place) : Ahead j b'.place := by
  cases h <;> simp_all [Ahead]

/-- Nothing but a sweep touches what a killed build left. -/
theorem Step.killed {j : Nat} (h : Step sha256 m s a s') (hj : s.builds[j]? = some b) (hp : b.place = .killed) :
    s'.builds[j]? = some b ∨ s'.builds[j]? = some { b with temporary := none } := by
  obtain ⟨b', hb', hcase⟩ := h.build_cases hj
  rcases hcase with rfl | rfl | ⟨_, _, hmove⟩ | ⟨_, _, hp', -⟩ | ⟨_, _, _, hp', -⟩ | ⟨_, _, _, hp', -⟩
  · exact .inl hb'
  · exact .inr hb'
  · have := hmove.not_over
    rw [hp] at this
    cases this
  all_goals
    rw [hp] at hp'
    cases hp'

/-- A stale temporary a killed build left, with a build whose sweep has yet to come to it. -/
def Due (i j : Nat) (t : Temporary) (s : State) : Prop :=
  ∃ b, s.builds[j]? = some b ∧ b.place = .killed ∧
    (b.temporary = none ∨
      (b.temporary = some t ∧ stale s.now t = true ∧ ∃ bi, s.builds[i]? = some bi ∧ Ahead j bi.place))

/-- The clock goes on. -/
theorem Step.now_le (h : Step sha256 m s a s') (hsmooth : Smooth s a) : s.now ≤ s'.now := by
  cases h with
  | clock => exact hsmooth
  | _ => exact Nat.le_refl _

/-- What is stale stays so. -/
theorem stale_of_le {t : Temporary} {now' : Nat} (hle : now ≤ now') (h : stale now t = true) : stale now' t = true := by
  simp only [stale, decide_eq_true_eq] at h ⊢
  omega

/-- A stale temporary is due until it is gone. -/
theorem Due.step {i j : Nat} {t : Temporary} (h : Due i j t s) (hsmooth : Smooth s a) (hs : Step sha256 m s a s') :
    Due i j t s' := by
  obtain ⟨b, hj, hp, hcase⟩ := h
  rcases hs.killed hj hp with hj' | hj'
  · refine ⟨b, hj', hp, ?_⟩
    rcases hcase with hnone | ⟨ht, hstale, bi, hi, hahead⟩
    · exact .inl hnone
    · have htemp : b.temporary ≠ none := by simp [ht]
      obtain ⟨bi', hi', hcase⟩ := hs.build_cases hi
      refine .inr ⟨ht, stale_of_le (hs.now_le hsmooth) hstale, bi', hi', ?_⟩
      rcases hcase with rfl | rfl | ⟨_, _, hmove⟩ | ⟨fault, entries, -, rfl, hp', hall⟩ |
        ⟨fault, k, entries, hp', rfl, hage⟩ | ⟨fault, k, entries, hp', rfl, hp'', hgone⟩
      · exact hahead
      · exact hahead
      · exact hmove.ahead hahead
      · rw [hp']
        exact hall j b hj htemp hsmooth
      · rw [hp'] at hahead
        rw [hage]
        rcases List.mem_cons.1 hahead with rfl | hmem
        · rw [onAge, if_pos ⟨hsmooth, by simp [hj, ht, hstale]⟩]
          exact .inl rfl
        · unfold onAge
          split
          · exact .inr hmem
          · exact hmem
      · rw [hp'] at hahead
        rw [hp'']
        rcases hahead with rfl | hmem
        · exact absurd (hgone hsmooth b hj') htemp
        · exact hmem
  · exact ⟨_, hj', hp, .inl rfl⟩

/-- The runs that go on from a state. -/
def onward (sha256 : List UInt8 → String) (m : Manifest) (s : State) : System State Label where
  init := (· = s)
  step := Step sha256 m

/-- **Temporaries do not pile up.** While no system call is at fault, whatever the clock does, a build
that is over has left no temporary unless it was killed; and one that a killed build left is gone
once a build that began its sweep more than a day later is through with it, if the clock is not set
back during that sweep. -/
theorem killed_builds_are_swept_up_after (h : (sys sha256 m store).ReachIf Faultless s) :
    (∀ b ∈ s.builds, b.place.over = true → b.place ≠ .killed → b.temporary = none) ∧
    ∀ (i j : Nat) (bi bj : Build) (t : Temporary), s.builds[i]? = some bi → bi.place = .listing →
      s.builds[j]? = some bj → bj.place = .killed → bj.temporary = some t → stale s.now t = true →
      ∀ s', (onward sha256 m s).ReachIf Smooth s' → ∀ bi', s'.builds[i]? = some bi' →
        bi'.place.sweeps = false → bi'.place ≠ .killed → ∃ bj', s'.builds[j]? = some bj' ∧ bj'.temporary = none := by
  constructor
  · intro b hb hover hk
    by_contra ht
    rcases tidy_of_reach h b hb ht with hp | hp
    · rw [Place.holds_of_over hover] at hp
      cases hp
    · exact hk hp
  · intro i j bi bj t hi hpi hj hpj ht hstale s' hs' bi' hi' hsweep hk
    have hdue : Due i j t s' := by
      refine hs'.induct ?_ fun s a s' _ hI hsmooth hs => Due.step hI hsmooth hs
      rintro s rfl
      exact ⟨bj, hj, hpj, .inr ⟨ht, hstale, bi, hi, by rw [hpi]; trivial⟩⟩
    obtain ⟨b, hb, -, hnone | ⟨-, -, bi'', hi'', hahead⟩⟩ := hdue
    · exact ⟨b, hb, hnone⟩
    · cases hi'.symm.trans hi''
      rcases hahead.place with h | h
      · rw [hsweep] at h
        cases h
      · exact absurd h hk

/-- A build is killed in its download. A day and a second later another one sweeps. -/
theorem temporary_of_a_killed_build_is_swept :
    ∃ s s' : State, (∃ b ∈ s.builds, b.place = .killed ∧ b.temporary ≠ none) ∧
      (onward (fun _ => "d") onlyOneByte s).ReachIf Smooth s' ∧
      ∃ b, s'.builds[0]? = some b ∧ b.temporary = none := by
  let S := sys (fun _ => "d") onlyOneByte (race 0 none []).store
  have hcold : S.ReachIf Faultless (race 0 none [⟨oneByte, .listing, none⟩]) :=
    .step (.step (.step (.init ⟨rfl, rfl⟩) (Step.start rfl) trivial)
      (race_step 0 rfl rfl (.metadata rfl : Move _ false _ _ _ _ _)) rfl)
      (race_step 0 rfl rfl (.createDirAll rfl : Move _ false _ _ _ _ _)) rfl
  have hfetching : S.ReachIf Faultless (race 0 none [⟨oneByte, .fetching, none⟩]) := by
    refine .step (.step hcold (race_list 0 [] rfl rfl fun j b hj ht => ?_) rfl)
      (race_step 0 rfl rfl (.fetch rfl : Move _ false _ _ _ _ _)) rfl
    rw [List.mem_singleton.1 (List.mem_of_getElem? hj)] at ht
    exact absurd rfl ht
  have hkilled : S.ReachIf Faultless (race 0 none [⟨oneByte, .killed, some ⟨[], 0⟩⟩]) :=
    .step (.step hfetching (race_step 0 rfl rfl (.write [] rfl : Move _ false _ _ _ _ _)) rfl)
      (race_step 0 rfl rfl (.kill rfl : Move _ false _ _ _ _ _)) trivial
  have hlater : S.ReachIf Faultless (race 86401 none [⟨oneByte, .killed, some ⟨[], 0⟩⟩, ⟨oneByte, .listing, none⟩]) :=
    .step (.step (.step (.step hkilled (Step.start rfl) trivial)
      (race_step 1 rfl rfl (.metadata rfl : Move _ false _ _ _ _ _)) rfl)
      (race_step 1 rfl rfl (.createDirAll rfl : Move _ false _ _ _ _ _)) rfl)
      (Step.clock 86401) trivial
  have hswept : (onward (fun _ => "d") onlyOneByte
      (race 86401 none [⟨oneByte, .killed, some ⟨[], 0⟩⟩, ⟨oneByte, .listing, none⟩])).ReachIf Smooth
      (race 86401 none [⟨oneByte, .killed, none⟩, ⟨oneByte, .fetching, none⟩]) := by
    refine .step (.step (.step (.step (.init rfl) (race_list 1 [0] rfl rfl fun j b hj ht => ?_) rfl)
      (Step.age (i := 1) (j := 0) rfl rfl) rfl) (Step.sweep (i := 1) (j := 0) rfl rfl) rfl)
      (race_step 1 rfl rfl (.fetch rfl : Move _ false _ _ _ _ _)) rfl
    rcases j with _ | _ | j
    · exact List.mem_singleton_self 0
    · cases hj
      exact absurd rfl ht
    · cases hj
  have htheorem := (killed_builds_are_swept_up_after hlater).2 1 0 _ _ _ rfl rfl rfl rfl rfl rfl _ hswept _ rfl rfl
  exact ⟨_, _, ⟨_, List.mem_cons_self, rfl, Option.some_ne_none _⟩, hswept, htheorem (fun h => by cases h)⟩

end EmbeddedMongo.Cache
