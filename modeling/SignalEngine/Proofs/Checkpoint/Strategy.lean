import SignalEngine.Proofs.Checkpoint.Divergence
import SignalEngine.Proofs.Json.Merged
import SignalEngine.Strategy.Basic
import SignalEngine.Text.Blank

namespace SignalEngine

open Json (Codec Fields)
open Json.Codec (readsBackIff_real readsBackIff_text readsBackIff_boolean skimmed_real
  skimmed_count)

namespace Signal

instance : Recorded Signal where
  plain s := [s.confidence]
  counts _ := []

theorem label_inj {a b : SignalKind} (h : a.label = b.label) : a = b := by
  cases a <;> cases b <;> first | rfl | exact absurd h (by decide)

theorem readsBackIff_codec (s : Signal) : Signal.codec.ReadsBackIff 1 s (Savable s) := by
  have hfields : Signal.fields.ReadsBackIff 0 (s.kind, s.confidence, ()) _ :=
    .required _ (Json.Codec.readsBackIff_enumeration s.kind.mem_all fun _ _ => label_inj) <|
      .required _ (readsBackIff_real _) .nil
  have hrecord : Signal.codec.ReadsBackIff 1 s _ := .record _ hfields (by decide) rfl
  apply hrecord.congr
  simp only [savable_iff, Recorded.plain, Recorded.counts, Recorded.codes, List.forall_mem_cons,
    List.not_mem_nil]
  tauto

theorem readsBackIff_option (o : Option Signal) :
    Signal.codec.option.ReadsBackIff 1 o (∀ s ∈ o, Savable s) := by
  cases o with
  | none => exact (Codec.readsBackIff_none _ _).congr (iff_of_true trivial nofun)
  | some s =>
      have hsome := Codec.readsBackIff_some s.readsBackIff_codec (Codec.opens_record _ s)
      exact hsome.congr (by simp)

end Signal

namespace Agreement

instance : Recorded Config where
  plain c := Recorded.plain c.superTrend ++ Recorded.plain c.turtle
  counts c := Recorded.counts c.superTrend ++ Recorded.counts c.turtle

theorem Config.savable_iff_parts {c : Config} :
    Savable c ↔ Savable c.superTrend ∧ Savable c.turtle := by
  simp only [savable_iff, Recorded.plain, Recorded.counts, Recorded.codes, List.forall_mem_cons,
    List.forall_mem_append, List.not_mem_nil]
  tauto

theorem Config.readsBackIff_codec (c : Config) : Config.codec.ReadsBackIff 1 c (Savable c) := by
  have hown : Config.ownFields.ReadsBackIff 0 (c.rememberSignal, ()) _ :=
    .defaulted _ _ (readsBackIff_boolean _) .nil
  have hskim : SuperTrend.Config.fields.Skimmed c.superTrend.parts
      (Savable c.superTrend ∧ Savable c.turtle ∧ True ∧ True) := by
    refine ⟨skimmed_count fun h => h.1.counted _ List.mem_cons_self, ?_⟩
    exact ⟨skimmed_real _ _, skimmed_real _ _, skimmed_real _ _, skimmed_real _ _, trivial⟩
  have hskim' : Turtle.Config.fields.Skimmed c.turtle.parts
      (Savable c.superTrend ∧ Savable c.turtle ∧ True ∧ True) := by
    have hcount : ∀ n ∈ Recorded.counts c.turtle, Codec.count.Skimmed n _ := fun n hn =>
      skimmed_count fun h : Savable c.superTrend ∧ Savable c.turtle ∧ True ∧ True =>
        h.2.1.counted n hn
    simp only [Recorded.counts, List.forall_mem_cons] at hcount
    exact ⟨hcount.1, hcount.2.1, hcount.2.2.1, hcount.2.2.2.1, hcount.2.2.2.2.1, trivial⟩
  have hmerged := Codec.ReadsBackIff.merged "struct SuperTrendTurtleConfig"
    c.superTrend.readsBackIff_fields c.turtle.readsBackIff_fields hown hskim hskim' (by decide)
  have hmap : Config.codec.ReadsBackIff 1 c _ := .map hmerged rfl
  apply hmap.congr
  rw [savable_iff_parts]
  tauto

instance : Recorded State where
  plain s := s.superTrendSignal.toList.flatMap Recorded.plain ++
    s.turtleSignal.toList.flatMap Recorded.plain ++
    Recorded.plain s.config ++ Recorded.plain s.superTrend ++ Recorded.plain s.turtle
  counts s := Recorded.counts s.config ++ Recorded.counts s.superTrend ++ Recorded.counts s.turtle

/-- The settings and both strategies are valid. -/
def State.Valid (s : State) : Prop :=
  s.config.validate = .ok () ∧ Sound s.superTrend ∧ Sound s.turtle

def Saved.Own (r : Saved) : Prop :=
  Savable r.config ∧ (∀ s ∈ r.superTrendSignal, Savable s) ∧ ∀ s ∈ r.turtleSignal, Savable s

theorem readsBackIff_savedCodec (r : Saved) : savedCodec.ReadsBackIff 2 r r.Own := by
  have hfields : Agreement.fields.ReadsBackIff 1
      (r.config, r.superTrend, r.turtle, r.superTrendSignal, r.turtleSignal, ()) _ :=
    .required _ r.config.readsBackIff_codec <| .required _ (readsBackIff_text _) <|
      .required _ (readsBackIff_text _) <| .optional _ (Signal.readsBackIff_option _) <|
      .optional _ (Signal.readsBackIff_option _) .nil
  have hrecord : savedCodec.ReadsBackIff 2 r _ := .record _ hfields (by decide) rfl
  apply hrecord.congr
  unfold Saved.Own
  tauto

theorem savable_iff_own {s : State} :
    Savable s ↔ s.saved.Own ∧ Savable s.superTrend ∧ Savable s.turtle := by
  have hsignal (o : Option Signal) : (∀ g ∈ o, Savable g) ↔
      ∀ x ∈ o.toList.flatMap Recorded.plain, x.isFinite = true := by
    cases o with
    | none => simp
    | some g => simp [savable_iff, Recorded.plain, Recorded.counts, Recorded.codes]
  rw [Saved.Own, hsignal, hsignal]
  simp only [savable_iff, Recorded.plain, Recorded.counts, Recorded.codes, State.saved,
    List.forall_mem_append, List.not_mem_nil]
  tauto

theorem Config.validate_eq_ok {c : Config} :
    c.validate = .ok () ↔ c.superTrend.validate = .ok () ∧ c.turtle.validate = .ok () := by
  simp only [Config.validate, bind_eq_ok]
  exact ⟨fun ⟨_, h⟩ => h, fun h => ⟨(), h⟩⟩

theorem load_eq_ok {t s : State} {text : String} :
    Persistent.load t text = .ok s ↔ ∃ r, readRecord name savedCodec text = .ok r ∧
      r.config.validate = .ok () ∧
      ∃ superTrend, Persistent.load (SuperTrend.State.fresh r.config.superTrend) r.superTrend =
        .ok superTrend ∧
      ∃ turtle, Persistent.load (Turtle.State.fresh r.config.turtle) r.turtle = .ok turtle ∧
        s = ⟨r.config, superTrend, turtle, r.superTrendSignal, r.turtleSignal⟩ := by
  simp only [Persistent.load, bind_eq_ok, acceptConfig_eq_ok, pure, Except.pure, Except.ok.injEq,
    exists_const, eq_comm (a := s)]

instance : Faithful State where
  Sound := State.Valid
  load_checkpoint {t s} hs _ hsave := by
    obtain ⟨hown, hsuperTrend, hturtle⟩ := savable_iff_own.1 hsave
    have hread := readRecord_encode name (readsBackIff_savedCodec s.saved) (by decide) hown
    refine load_eq_ok.2 ⟨s.saved, hread, hs.1, s.superTrend, ?_, s.turtle, ?_, rfl⟩
    · dsimp only [State.saved]
      exact Faithful.load_checkpoint hs.2.1 trivial hsuperTrend
    · dsimp only [State.saved]
      exact Faithful.load_checkpoint hs.2.2 trivial hturtle
  savable_of_load {t s s'} _ _ hs _ _ h htext := by
    obtain ⟨r, hread, _, superTrend, hsuperTrend, turtle, hturtle, rfl⟩ := load_eq_ok.1 h
    obtain ⟨hown, rfl⟩ := eq_of_readRecord_encode (readsBackIff_savedCodec s.saved)
      (by decide) hread
    have hsaved := (eq_of_encode_eq (readsBackIff_savedCodec s.saved) (by decide) hown htext
      (readsBackIff_savedCodec _)).2
    obtain ⟨hvalidSuperTrend, hvalidTurtle⟩ := Config.validate_eq_ok.1 hs.1
    obtain ⟨hsavableSuperTrend, hsavableTurtle⟩ := Config.savable_iff_parts.1 hown.1
    dsimp only [State.saved] at hsuperTrend hturtle
    refine savable_iff_own.2 ⟨hown, ?_, ?_⟩
    · exact Faithful.savable_of_load (SuperTrend.valid_fresh hvalidSuperTrend)
        (SuperTrend.savable_fresh hsavableSuperTrend) hs.2.1 trivial trivial hsuperTrend
        (congrArg Saved.superTrend hsaved)
    · exact Faithful.savable_of_load (Turtle.valid_fresh hvalidTurtle)
        (Turtle.savable_fresh hsavableTurtle) hs.2.2 trivial trivial hturtle
          (congrArg Saved.turtle hsaved)
  sound_of_load _ h := by
    obtain ⟨r, _, hvalid, superTrend, hsuperTrend, turtle, hturtle, rfl⟩ := load_eq_ok.1 h
    obtain ⟨hvalidSuperTrend, hvalidTurtle⟩ := Config.validate_eq_ok.1 hvalid
    exact ⟨hvalid, Faithful.sound_of_load (SuperTrend.valid_fresh hvalidSuperTrend) hsuperTrend,
      Faithful.sound_of_load (Turtle.valid_fresh hvalidTurtle) hturtle⟩

theorem valid_fresh {c : Config} (h : c.validate = .ok ()) : (State.fresh c).Valid := by
  obtain ⟨hsuperTrend, hturtle⟩ := Config.validate_eq_ok.1 h
  exact ⟨h, SuperTrend.valid_fresh hsuperTrend, Turtle.valid_fresh hturtle⟩

theorem valid_update {s : State} (h : s.Valid) (c : Candle) : (s.update c).1.Valid :=
  ⟨h.1, SuperTrend.valid_update h.2.1 c, Turtle.valid_advance h.2.2 c⟩

theorem valid_preload {s : State} (h : s.Valid) (c : Candle) : (s.preload c).Valid :=
  ⟨h.1, SuperTrend.valid_advance h.2.1 c, Turtle.valid_advance h.2.2 c⟩

end Agreement

namespace Strategy

instance : Recorded Strategy where
  plain
    | superTrend s => Recorded.plain s
    | turtle s => Recorded.plain s
    | aldo s => Recorded.plain s
    | agreement s => Recorded.plain s
  counts
    | superTrend s => Recorded.counts s
    | turtle s => Recorded.counts s
    | aldo s => Recorded.counts s
    | agreement s => Recorded.counts s
  codes
    | superTrend s => Recorded.codes s
    | turtle s => Recorded.codes s
    | aldo s => Recorded.codes s
    | agreement s => Recorded.codes s

/-- The state is valid as one of its kind. -/
def Valid : Strategy → Prop
  | superTrend s => Sound s
  | turtle s => Sound s
  | aldo s => Sound s
  | agreement s => Sound s

def Quoted : Strategy → Prop
  | superTrend s => Priced s
  | turtle s => Priced s
  | aldo s => Priced s
  | agreement s => Priced s

inductive SameKind : Strategy → Strategy → Prop
  | superTrend (t s : SuperTrend.State) : SameKind (superTrend t) (superTrend s)
  | turtle (t s : Turtle.State) : SameKind (turtle t) (turtle s)
  | aldo (t s : Aldo.State) : SameKind (aldo t) (aldo s)
  | agreement (t s : Agreement.State) : SameKind (agreement t) (agreement s)

theorem sameKind_of_name {t s : Strategy} (h : t.name = s.name) : SameKind t s := by
  cases t <;> cases s <;> first
    | constructor
    | simp [name, SuperTrend.name, Turtle.name, Aldo.name, Agreement.name] at h

theorem wraps_superTrend : Wraps superTrend :=
  .of_eq (fun _ => rfl) (fun _ _ => rfl) (fun _ => rfl) (fun _ => rfl) fun _ => rfl

theorem wraps_turtle : Wraps turtle :=
  .of_eq (fun _ => rfl) (fun _ _ => rfl) (fun _ => rfl) (fun _ => rfl) fun _ => rfl

theorem wraps_aldo : Wraps aldo :=
  .of_eq (fun _ => rfl) (fun _ _ => rfl) (fun _ => rfl) (fun _ => rfl) fun _ => rfl

theorem wraps_agreement : Wraps agreement :=
  .of_eq (fun _ => rfl) (fun _ _ => rfl) (fun _ => rfl) (fun _ => rfl) fun _ => rfl

instance : Faithful Strategy where
  Sound := Valid
  Fits := SameKind
  Priced := Quoted
  load_checkpoint hs hfits h := by
    cases hfits with
    | superTrend t s => exact wraps_superTrend.load_checkpoint hs trivial h
    | turtle t s => exact wraps_turtle.load_checkpoint hs trivial h
    | aldo t s => exact wraps_aldo.load_checkpoint hs trivial h
    | agreement t s => exact wraps_agreement.load_checkpoint hs trivial h
  savable_of_load ht htsave hs hprice hfits h htext := by
    cases hfits with
    | superTrend t s => exact wraps_superTrend.savable_of_load ht htsave hs hprice trivial h htext
    | turtle t s => exact wraps_turtle.savable_of_load ht htsave hs hprice trivial h htext
    | aldo t s => exact wraps_aldo.savable_of_load ht htsave hs hprice trivial h htext
    | agreement t s => exact wraps_agreement.savable_of_load ht htsave hs hprice trivial h htext
  sound_of_load {t s text} ht h := by
    cases t with
    | superTrend t =>
        obtain ⟨s, rfl, hs⟩ := wraps_superTrend.sound_of_load ht h
        exact hs
    | turtle t =>
        obtain ⟨s, rfl, hs⟩ := wraps_turtle.sound_of_load ht h
        exact hs
    | aldo t =>
        obtain ⟨s, rfl, hs⟩ := wraps_aldo.sound_of_load ht h
        exact hs
    | agreement t =>
        obtain ⟨s, rfl, hs⟩ := wraps_agreement.sound_of_load ht h
        exact hs

theorem valid_update {s : Strategy} (h : Sound s) (c : Candle) : Sound (s.update c).1 := by
  cases s with
  | superTrend s => exact SuperTrend.valid_update h c
  | turtle s => exact Turtle.valid_advance h c
  | aldo s => exact Aldo.State.Valid.update h c
  | agreement s => exact Agreement.valid_update h c

theorem valid_preload {s : Strategy} (h : Sound s) (c : Candle) : Sound (s.preload c) := by
  cases s with
  | superTrend s => exact SuperTrend.valid_advance h c
  | turtle s => exact Turtle.valid_advance h c
  | aldo s => exact Aldo.State.Valid.update h c
  | agreement s => exact Agreement.valid_preload h c

theorem name_update (s : Strategy) (c : Candle) : (s.update c).1.name = s.name := by
  cases s <;> rfl

theorem name_preload (s : Strategy) (c : Candle) : (s.preload c).name = s.name := by
  cases s <;> rfl

/-- Only the divergence strategy keeps a price that may be missing. -/
theorem priced_update {s : Strategy} (h : Priced s) {c : Candle} (hc : c.close.isFinite = true) :
    Priced (s.update c).1 := by
  cases s with
  | superTrend s => exact trivial
  | turtle s => exact trivial
  | aldo s => exact Aldo.State.priced_update h hc
  | agreement s => exact trivial

theorem priced_preload {s : Strategy} (h : Priced s) {c : Candle} (hc : c.close.isFinite = true) :
    Priced (s.preload c) := by
  cases s with
  | superTrend s => exact trivial
  | turtle s => exact trivial
  | aldo s => exact Aldo.State.priced_update h hc
  | agreement s => exact trivial

theorem load_congr {t t' : Strategy} (h : t.name = t'.name) (text : String) :
    Persistent.load t text = Persistent.load t' text := by
  cases sameKind_of_name h with
  | superTrend t t' => rfl
  | turtle t t' => rfl
  | aldo t t' => rfl
  | agreement t t' => rfl

theorem exists_savable (s : Strategy) : ∃ t : Strategy, t.name = s.name ∧ Sound t ∧ Savable t := by
  cases s with
  | superTrend s =>
      refine ⟨superTrend (.fresh .standard), rfl, SuperTrend.valid_fresh rfl, ?_⟩
      exact savable_iff.2 (by decide +kernel)
  | turtle s =>
      refine ⟨turtle (.fresh .standard), rfl, Turtle.valid_fresh rfl, ?_⟩
      exact savable_iff.2 (by decide +kernel)
  | aldo s =>
      refine ⟨aldo (.fresh .standard), rfl, Aldo.State.valid_fresh rfl, ?_⟩
      exact savable_iff.2 (by decide +kernel)
  | agreement s =>
      refine ⟨agreement (.fresh .standard), rfl, Agreement.valid_fresh rfl, ?_⟩
      exact savable_iff.2 (by decide +kernel)

/-- A state can be saved just when its checkpoint is loaded and gives the same checkpoint again. -/
theorem savable_iff_load {t s : Strategy} (hname : t.name = s.name) (hs : Sound s)
    (hprice : Priced s) :
    Savable s ↔ ∃ s', Persistent.load t (checkpoint s) = .ok s' ∧ checkpoint s' = checkpoint s := by
  constructor
  · intro h
    exact ⟨s, Faithful.load_checkpoint hs (sameKind_of_name hname) h, rfl⟩
  · rintro ⟨s', hload, htext⟩
    obtain ⟨t', hname', ht', hsave'⟩ := exists_savable s
    rw [load_congr (hname.trans hname'.symm)] at hload
    exact Faithful.savable_of_load ht' hsave' hs hprice (sameKind_of_name hname') hload htext

theorem isBlank_checkpoint (s : Strategy) : Text.isBlank (checkpoint s) = false := by
  have hbrace (rest : List Char) : Text.isBlank (String.ofList ('\x7b' :: rest)) = false := by
    rw [Text.isBlank, String.toList_ofList, List.all_cons]
    rfl
  cases s with
  | superTrend s => exact hbrace _
  | turtle s => exact hbrace _
  | aldo s => exact hbrace _
  | agreement s => exact hbrace _

end Strategy

end SignalEngine
