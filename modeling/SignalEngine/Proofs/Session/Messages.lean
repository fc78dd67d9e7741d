import SignalEngine.Proofs.Checkpoint.Strategy
import SignalEngine.Proofs.Json.Ranges
import SignalEngine.Proofs.Json.Tagged
import SignalEngine.Proofs.Session.History
import SignalEngine.Proofs.Session.Lines

namespace SignalEngine

open Json (Codec Fields Variant)
open Json.Codec (readsBackIff_real readsBackIff_lossless readsBackIff_text readsBackIff_small
  readsBackIff_identifier readsBackIff_time readsBackIff_enumeration prints_real prints_lossless
  prints_text prints_integer prints_natural prints_enumeration yields_true yields_real
  yields_identifier yields_time)

/-- The prices and the volume are finite, and the integers are those of their words. -/
structure Candle.OnWire (c : Candle) : Prop where
  market : c.market < 2 ^ 32
  symbol : c.symbol < 2 ^ 32
  timestamp : -2 ^ 63 ≤ c.timestamp ∧ c.timestamp < 2 ^ 63
  finite : c.isFinite = true

namespace Interval

theorem label_inj {a b : Interval} (h : a.label = b.label) : a = b := by
  have hlabel := congrArg ofLabel? h
  rw [ofLabel?_label, ofLabel?_label] at hlabel
  exact Option.some_inj.1 hlabel

end Interval

namespace Candle

theorem onWire_iff {c : Candle} : c.OnWire ↔ c.market < 2 ^ 32 ∧ c.symbol < 2 ^ 32 ∧
    (-2 ^ 63 ≤ c.timestamp ∧ c.timestamp < 2 ^ 63) ∧ c.opening.isFinite = true ∧
    c.high.isFinite = true ∧ c.low.isFinite = true ∧ c.close.isFinite = true ∧
    c.volume.isFinite = true := by
  have hfinite : c.isFinite = true ↔ c.opening.isFinite = true ∧ c.high.isFinite = true ∧
      c.low.isFinite = true ∧ c.close.isFinite = true ∧ c.volume.isFinite = true := by
    simp only [isFinite, Bool.and_eq_true, and_assoc]
  rw [← hfinite]
  exact ⟨fun h => ⟨h.market, h.symbol, h.timestamp, h.finite⟩,
    fun h => ⟨h.1, h.2.1, h.2.2.1, h.2.2.2⟩⟩

theorem readsBackIff_codec (c : Candle) : Candle.codec.ReadsBackIff 1 c c.OnWire := by
  have hfields : Candle.fields.ReadsBackIff 0 (c.market, c.symbol, c.interval, c.timestamp,
      c.opening, c.high, c.low, c.close, c.volume, ()) _ :=
    .defaulted _ _ (readsBackIff_identifier _) <| .defaulted _ _ (readsBackIff_identifier _) <|
      .defaulted _ _ (readsBackIff_enumeration c.interval.mem_all fun _ _ => Interval.label_inj) <|
      .required _ (readsBackIff_time _) <| .required _ (readsBackIff_real _) <|
      .required _ (readsBackIff_real _) <| .required _ (readsBackIff_real _) <|
      .required _ (readsBackIff_real _) <| .defaulted _ _ (readsBackIff_real _) .nil
  have hrecord : Candle.codec.ReadsBackIff 1 c _ := .record _ hfields (by decide) rfl
  apply hrecord.congr
  rw [onWire_iff]
  tauto

theorem yields_codec : Candle.codec.Yields OnWire := by
  have hfields : Candle.fields.Yields _ _ :=
    .defaulted _ yields_identifier (by decide) <| .defaulted _ yields_identifier (by decide) <|
      .defaulted _ (yields_true _) trivial <| .required _ yields_time <|
      .required _ yields_real <| .required _ yields_real <| .required _ yields_real <|
      .required _ yields_real <| .defaulted _ yields_real (by decide) .nil
  refine .record _ hfields fun a ha => ?_
  rw [onWire_iff]
  tauto

theorem prints_codec : Candle.codec.Prints := by
  have hfields : Candle.fields.Prints :=
    .defaulted _ _ (prints_natural _ _) <| .defaulted _ _ (prints_natural _ _) <|
      .defaulted _ _ (prints_enumeration _ _) <| .required _ (prints_integer _ _ _) <|
      .required _ prints_real <| .required _ prints_real <| .required _ prints_real <|
      .required _ prints_real <| .defaulted _ _ prints_real .nil
  exact .record _ hfields

end Candle

namespace SignalRecord

structure OnWire (r : SignalRecord) : Prop where
  candle : r.candle.OnWire
  confidence : r.confidence.isFinite = true

theorem readsBackIff_codec (r : SignalRecord) : SignalRecord.codec.ReadsBackIff 2 r r.OnWire := by
  have hfields : SignalRecord.fields.ReadsBackIff 1 (r.candle, r.kind, r.confidence, ()) _ :=
    .required _ r.candle.readsBackIff_codec <|
      .required _ (readsBackIff_enumeration r.kind.mem_all fun _ _ => Signal.label_inj) <|
      .required _ (readsBackIff_real _) .nil
  have hrecord : SignalRecord.codec.ReadsBackIff 2 r _ := .record _ hfields (by decide) rfl
  exact hrecord.congr
    ⟨fun ⟨hcandle, _, hconfidence, _⟩ => ⟨hcandle, hconfidence⟩,
      fun h => ⟨h.candle, trivial, h.confidence, trivial⟩⟩

theorem prints_codec : SignalRecord.codec.Prints := by
  have hfields : SignalRecord.fields.Prints :=
    .required _ Candle.prints_codec <| .required _ (prints_enumeration _ _) <|
      .required _ prints_real .nil
  exact .record _ hfields

end SignalRecord

namespace DebugPoint

def OnWire (p : DebugPoint) : Prop :=
  -2 ^ 63 ≤ p.time ∧ p.time < 2 ^ 63

theorem readsBackIff_codec (p : DebugPoint) : DebugPoint.codec.ReadsBackIff 1 p p.OnWire := by
  have hfields : DebugPoint.fields.ReadsBackIff 0 (p.time, p.value, ()) _ :=
    .required _ (readsBackIff_time _) <| .required _ (readsBackIff_lossless _) .nil
  have hrecord : DebugPoint.codec.ReadsBackIff 1 p _ := .record _ hfields (by decide) rfl
  exact hrecord.congr (and_iff_left ⟨trivial, trivial⟩)

theorem prints_codec : DebugPoint.codec.Prints := by
  have hfields : DebugPoint.fields.Prints :=
    .required _ (prints_integer _ _ _) <| .required _ prints_lossless .nil
  exact .record _ hfields

end DebugPoint

namespace DebugSeries

structure OnWire (s : DebugSeries) : Prop where
  index : -2 ^ 31 ≤ s.index ∧ s.index < 2 ^ 31
  points : ∀ p ∈ s.points.toList, p.OnWire

theorem readsBack_codec {s : DebugSeries} (h : s.OnWire) : DebugSeries.codec.ReadsBack 3 s := by
  have hpoints : (Codec.list DebugPoint.codec).ReadsBack 2 s.points.toList :=
    Codec.readsBack_list fun p hp =>
      ⟨p.readsBackIff_codec.readsBack (h.points p hp), Codec.opens_record _ p⟩
  have hfields : DebugSeries.fields.ReadsBackIff 2 (s.name, s.index, s.points.toList, ()) _ :=
    .required _ (readsBackIff_text _) <| .required _ (readsBackIff_small _) <|
      .required _ (.of_readsBack hpoints) .nil
  have hrecord : DebugSeries.codec.ReadsBackIff 3 s _ := .record _ hfields (by decide) rfl
  exact hrecord.readsBack ⟨trivial, h.index, trivial, trivial⟩

theorem prints_codec : DebugSeries.codec.Prints := by
  have hfields : DebugSeries.fields.Prints :=
    .required _ prints_text <| .required _ (prints_integer _ _ _) <|
      .required _ DebugPoint.prints_codec.list .nil
  exact .record _ hfields

end DebugSeries

theorem Signal.prints_codec : Signal.codec.Prints := by
  have hfields : Signal.fields.Prints :=
    .required _ (prints_enumeration _ _) <| .required _ prints_real .nil
  exact .record _ hfields

theorem prints_stateFields : stateFields.Prints :=
  .required _ prints_text .nil

/-- Both protocols send the state in one form. -/
theorem readsBack_state (what : String) (make : String → β) (text : String) :
    (Variant.withFields "state" what stateFields fun (text, ()) => make text).ReadsBack 1
      (Json.objectText (stateFields.memberTexts (text, ()))) (make text) := by
  have hfields : stateFields.ReadsBackIff 0 (text, ()) _ := .required _ (readsBackIff_text _) .nil
  exact .withFields _ _ _ hfields (by decide) ⟨trivial, trivial⟩

namespace BatchOutput

def OnWire : BatchOutput → Prop
  | signals records => ∀ r ∈ records, r.OnWire
  | state _ => True
  | debug series => ∀ s ∈ series, s.OnWire

theorem decode_encode {m : BatchOutput} (h : m.OnWire) :
    BatchOutput.codec.decode (BatchOutput.codec.encode m) = .ok m := by
  cases m with
  | signals records =>
      have hrecords : (Codec.list SignalRecord.codec).ReadsBack 3 records :=
        Codec.readsBack_list fun r hr =>
          ⟨r.readsBackIff_codec.readsBack (h r hr), Codec.opens_record _ r⟩
      have hread : BatchOutput.codec.ReadsBack 4 (signals records) :=
        Codec.readsBack_tagged (.around "signals" signals hrecords) rfl rfl
      exact Codec.decode_encode hread (by decide)
  | state text =>
      have hread : BatchOutput.codec.ReadsBack 2 (state text) :=
        Codec.readsBack_tagged (readsBack_state "BatchOutput::State" state text) rfl rfl
      exact Codec.decode_encode hread (by decide)
  | debug series =>
      have hseries : (Codec.list DebugSeries.codec).ReadsBack 4 series :=
        Codec.readsBack_list fun s hs => ⟨DebugSeries.readsBack_codec (h s hs),
          Codec.opens_record _ s⟩
      have hread : BatchOutput.codec.ReadsBack 5 (debug series) :=
        Codec.readsBack_tagged (.around "debug" debug hseries) rfl rfl
      exact Codec.decode_encode hread (by decide)

theorem holds {m : BatchOutput} (h : m.OnWire) : Lines.Holds BatchOutput.codec m where
  printable := by
    cases m with
    | signals records => exact Json.printable_taggedText _ (SignalRecord.prints_codec.list records)
    | state text =>
        exact Json.printable_taggedText _
          (Json.printable_objectText (prints_stateFields.memberTexts _))
    | debug series => exact Json.printable_taggedText _ (DebugSeries.prints_codec.list series)
  braced := by
    cases m with
    | signals records => exact ⟨_, rfl⟩
    | state text => exact ⟨_, rfl⟩
    | debug series => exact ⟨_, rfl⟩
  decode := decode_encode h

end BatchOutput

namespace StreamOutput

def OnWire : StreamOutput → Prop
  | tick signal => ∀ s ∈ signal, s.confidence.isFinite = true
  | state _ => True

theorem decode_encode {m : StreamOutput} (h : m.OnWire) :
    StreamOutput.codec.decode (StreamOutput.codec.encode m) = .ok m := by
  cases m with
  | tick signal =>
      have hsavable : ∀ s ∈ signal, Savable s := fun s hs =>
        ⟨List.forall_mem_singleton.2 (h s hs), nofun, nofun⟩
      have hfields : tickFields.ReadsBackIff 1 (signal, ()) _ :=
        .optional _ (Signal.readsBackIff_option signal) .nil
      have hcontent := Variant.ReadsBack.withFields "tick" "StreamOutput::Tick"
        (fun p => tick p.1) hfields (by decide) ⟨hsavable, trivial⟩
      have hread : StreamOutput.codec.ReadsBack 3 (tick signal) :=
        Codec.readsBack_tagged hcontent rfl rfl
      exact Codec.decode_encode hread (by decide)
  | state text =>
      have hread : StreamOutput.codec.ReadsBack 2 (state text) :=
        Codec.readsBack_tagged (readsBack_state "StreamOutput::State" state text) rfl rfl
      exact Codec.decode_encode hread (by decide)

theorem holds {m : StreamOutput} (h : m.OnWire) : Lines.Holds StreamOutput.codec m where
  printable := by
    have htick : tickFields.Prints := .optional _ Signal.prints_codec .nil
    cases m with
    | tick signal =>
        exact Json.printable_taggedText _ (Json.printable_objectText (htick.memberTexts _))
    | state text =>
        exact Json.printable_taggedText _
          (Json.printable_objectText (prints_stateFields.memberTexts _))
  braced := by
    cases m with
    | tick signal => exact ⟨_, rfl⟩
    | state text => exact ⟨_, rfl⟩
  decode := decode_encode h

end StreamOutput

theorem BatchInput.yields_codec :
    BatchInput.codec.Yields fun m => ∀ f ∈ m.feeds, f.candle.OnWire := by
  have hfields : BatchInput.candleFields.Yields _ _ := .required _ Candle.yields_codec.list .nil
  refine .tagged ?_
  simp only [List.forall_mem_cons]
  refine ⟨.around _ (yields_true _) fun _ _ => List.forall_mem_nil _,
    .withFields _ _ hfields fun a ha => ?_, .withFields _ _ hfields fun a ha => ?_,
    List.forall_mem_nil _⟩
  · exact List.forall_mem_map.2 ha.1
  · exact List.forall_mem_map.2 ha.1

end SignalEngine
