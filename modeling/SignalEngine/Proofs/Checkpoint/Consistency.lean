import SignalEngine.Proofs.Checkpoint.Target

/-!
Which states a text can be restored as. A strategy compares the rings of its own record with the
settings beside them, but the checkpoints inside it are read by the components that they belong to,
which know nothing of those settings. Main statement: a state comes out of some text just when its
own record fits its settings, every ring has a slot, and it can be saved.
-/

namespace SignalEngine

section Accepted

variable {σ : Type} [Persistent σ]

/-- There is a text that is restored as the state. -/
def Accepted (s : σ) : Prop :=
  ∃ (t : σ) (text : String), restore t text = ⟨s, none⟩

variable [Recorded σ] [Faithful σ] [Reloadable σ] [Forgetful σ]

/-- A kind of component with one state that fits all others of the kind and can be saved. -/
theorem accepted_iff {t : σ} (ht : Sound t) (hsave : Savable t)
    (hfits : ∀ s, Faithful.Fits t s) {s : σ} : Accepted s ↔ Sound s ∧ Savable s := by
  constructor
  · rintro ⟨t', text, h⟩
    have hload := load_of_restore h
    rw [Forgetful.load_eq t' t] at hload
    exact ⟨Faithful.sound_of_load ht hload, savable_loaded hsave hload⟩
  · rintro ⟨hs, h⟩
    exact ⟨t, checkpoint s, restore_of_sound hs (hfits s) h⟩

end Accepted

theorem SuperTrend.accepted_iff {s : SuperTrend.State} : Accepted s ↔ Sound s ∧ Savable s :=
  SignalEngine.accepted_iff (SuperTrend.valid_fresh rfl)
    (SuperTrend.savable_fresh SuperTrend.Config.savable_standard) fun _ => trivial

theorem Turtle.accepted_iff {s : Turtle.State} : Accepted s ↔ Sound s ∧ Savable s :=
  SignalEngine.accepted_iff (Turtle.valid_fresh rfl)
    (Turtle.savable_fresh Turtle.Config.savable_standard) fun _ => trivial

theorem Aldo.accepted_iff {s : Aldo.State} : Accepted s ↔ Sound s ∧ Savable s :=
  SignalEngine.accepted_iff (Aldo.State.valid_fresh rfl)
    (Aldo.savable_fresh Aldo.Config.savable_standard) fun _ => trivial

theorem Agreement.accepted_iff {s : Agreement.State} : Accepted s ↔ Sound s ∧ Savable s :=
  SignalEngine.accepted_iff (Agreement.valid_fresh rfl)
    (Agreement.savable_fresh Agreement.Config.savable_standard) fun _ => trivial

/-- The strategies in agreement are accepted with two strategies that would be accepted by
themselves. -/
theorem Agreement.accepted_iff_parts {s : Agreement.State} :
    Accepted s ↔ s.config.validate = .ok () ∧ Accepted s.superTrend ∧ Accepted s.turtle ∧
      Savable s := by
  rw [Agreement.accepted_iff, SuperTrend.accepted_iff, Turtle.accepted_iff]
  constructor
  · rintro ⟨⟨hvalid, hsuperTrend, hturtle⟩, h⟩
    obtain ⟨-, hsaveSuperTrend, hsaveTurtle⟩ := Agreement.savable_iff_own.1 h
    exact ⟨hvalid, ⟨hsuperTrend, hsaveSuperTrend⟩, ⟨hturtle, hsaveTurtle⟩, h⟩
  · rintro ⟨hvalid, hsuperTrend, hturtle, h⟩
    exact ⟨⟨hvalid, hsuperTrend.1, hturtle.1⟩, h⟩

/-- What is known of a state that a text was restored as: its settings are valid, the rings of its
own record are as long as they say, the oscillator is of the chosen kind, and the rings of nested
components have a slot. There is a text for every such state that can be saved. -/
theorem accepted_iff_shape :
    (∀ s : SuperTrend.State, Accepted s ↔
      s.config.validate = .ok () ∧ s.range.HasSlots ∧ Savable s) ∧
    (∀ s : Turtle.State, Accepted s ↔
      s.config.validate = .ok () ∧ s.closes.capacity = s.config.longestChannel ∧
        s.filter.HasSlots ∧ Savable s) ∧
    (∀ s : Aldo.State, Accepted s ↔
      s.config.validate = .ok () ∧ s.highs.capacity = s.config.period ∧
        s.lows.capacity = s.config.period ∧ s.oscs.capacity = s.config.period ∧
        s.oscillator.kind = s.config.oscillator ∧ Sound s.oscillator ∧ Savable s) ∧
    ∀ s : Agreement.State, Accepted s ↔
      s.config.validate = .ok () ∧ Accepted s.superTrend ∧ Accepted s.turtle ∧ Savable s := by
  refine ⟨?_, ?_, ?_, ?_⟩
  · intro s
    rw [SuperTrend.accepted_iff]
    exact and_assoc
  · intro s
    rw [Turtle.accepted_iff]
    exact and_assoc.trans (and_congr_right fun _ => and_assoc)
  · intro s
    rw [Aldo.accepted_iff]
    constructor
    · rintro ⟨hs, h⟩
      exact ⟨hs.config, hs.highs, hs.lows, hs.oscs, hs.kind, hs.oscillator, h⟩
    · rintro ⟨hconfig, hhighs, hlows, hoscs, hkind, hoscillator, h⟩
      exact ⟨⟨hconfig, hhighs, hlows, hoscs, hkind, hoscillator⟩, h⟩
  · intro s
    exact Agreement.accepted_iff_parts

/-- Texts are accepted in which nested checkpoints do not fit the settings beside them: another period
of the true ranges and of their rings, another stop, another period of the filter, another length of
the oscillator, and other settings of both strategies in agreement. -/
theorem accepted_mismatched :
    let superTrend : SuperTrend.State :=
      { SuperTrend.State.fresh .standard with range := .fresh 3, stop := .fresh 1.0 }
    let turtle : Turtle.State := { Turtle.State.fresh .standard with filter := .fresh 3 }
    let divergence : Aldo.State := { Aldo.State.fresh .standard with oscillator := .cci (.fresh 3) }
    let agreement : Agreement.State :=
      { Agreement.State.fresh .standard with
        superTrend := .fresh { SuperTrend.Config.standard with rangePeriod := 3 }
        turtle := .fresh { Turtle.Config.standard with filterPeriod := 3 } }
    (restore (SuperTrend.State.fresh .standard) (checkpoint superTrend) = ⟨superTrend, none⟩ ∧
      superTrend.range.period ≠ superTrend.config.rangePeriod ∧
      superTrend.range.highs.capacity ≠ superTrend.config.rangePeriod ∧
      superTrend.stop.percentage ≠ superTrend.config.trailingStop) ∧
    (restore (Turtle.State.fresh .standard) (checkpoint turtle) = ⟨turtle, none⟩ ∧
      turtle.filter.period ≠ turtle.config.filterPeriod) ∧
    (restore (Aldo.State.fresh .standard) (checkpoint divergence) = ⟨divergence, none⟩ ∧
      ∃ index, divergence.oscillator = .cci index ∧ index.period ≠ divergence.config.cciLength) ∧
    restore (Agreement.State.fresh .standard) (checkpoint agreement) = ⟨agreement, none⟩ ∧
      agreement.superTrend.config ≠ agreement.config.superTrend ∧
      agreement.turtle.config ≠ agreement.config.turtle := by
  intro superTrend turtle divergence agreement
  refine ⟨⟨?_, ?_, ?_, ?_⟩, ⟨?_, ?_⟩, ⟨?_, ?_⟩, ?_, ?_, ?_⟩
  · have hsave : Savable superTrend := savable_iff.2 (by decide +kernel)
    have hvalid : SuperTrend.Config.standard.validate = .ok () := rfl
    have hs : Sound superTrend := ⟨hvalid, Atr.sound_fresh (by decide)⟩
    exact restore_of_sound hs trivial hsave
  · decide
  · decide
  · decide
  · have hsave : Savable turtle := savable_iff.2 (by decide +kernel)
    have hs : Sound turtle := ⟨rfl, Window.capacity_blank _, Sma.sound_fresh (by decide)⟩
    exact restore_of_sound hs trivial hsave
  · decide
  · have hsave : Savable divergence := savable_iff.2 (by decide +kernel)
    have hs : Sound divergence :=
      { Aldo.State.valid_fresh rfl with
        kind := rfl
        oscillator := Cci.sound_withConstant (by decide) }
    exact restore_of_sound hs trivial hsave
  · exact ⟨_, rfl, by decide⟩
  · have hsave : Savable agreement := savable_iff.2 (by decide +kernel)
    have hvalid : Agreement.Config.standard.validate = .ok () := rfl
    have hs : Sound agreement := ⟨hvalid, SuperTrend.valid_fresh rfl, Turtle.valid_fresh rfl⟩
    exact restore_of_sound hs trivial hsave
  · intro h
    exact absurd (congrArg SuperTrend.Config.rangePeriod h) (by decide)
  · intro h
    exact absurd (congrArg Turtle.Config.filterPeriod h) (by decide)

end SignalEngine
