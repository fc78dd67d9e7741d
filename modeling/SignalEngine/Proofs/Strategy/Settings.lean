import SignalEngine.Proofs.Checkpoint.Loaded
import SignalEngine.Proofs.Json.Halves
import SignalEngine.Proofs.Json.Objects

namespace SignalEngine

open Json (Codec Value maxDepth)
open Json.Codec (readsValues_count readsValues_real readsValues_boolean shows_count shows_real
  shows_boolean)

theorem SuperTrend.Config.readValues_fields : SuperTrend.Config.fields.ReadValues :=
  ⟨readsValues_count, readsValues_real, readsValues_real, readsValues_real, readsValues_real,
    trivial⟩

theorem Turtle.Config.readValues_fields : Turtle.Config.fields.ReadValues :=
  ⟨readsValues_count, readsValues_count, readsValues_count, readsValues_count, readsValues_count,
    trivial⟩

theorem SuperTrend.Config.shows_fields {c : SuperTrend.Config} (h : Savable c) :
    ∃ members, SuperTrend.Config.fields.Shows c.parts members := by
  have hfinite := h.finite
  have hcounted := h.counted
  simp only [Recorded.plain, Recorded.counts, List.forall_mem_cons] at hfinite hcounted
  obtain ⟨hband, hstop, hmultiplier, hbias, -⟩ := hfinite
  exact ⟨_, .cons (shows_count hcounted.1) <| .cons (shows_real hband) <|
    .cons (shows_real hstop) <| .cons (shows_real hmultiplier) <| .cons (shows_real hbias) .nil⟩

theorem Turtle.Config.shows_fields {c : Turtle.Config} (h : Savable c) :
    ∃ members, Turtle.Config.fields.Shows c.parts members := by
  have hcounted := h.counted
  simp only [Recorded.counts, List.forall_mem_cons] at hcounted
  obtain ⟨henter, hexit, henter', hexit', hfilter, -⟩ := hcounted
  exact ⟨_, .cons (shows_count henter) <| .cons (shows_count hexit) <|
    .cons (shows_count henter') <| .cons (shows_count hexit') <|
    .cons (shows_count hfilter) .nil⟩

namespace Agreement.Config

theorem readValues_ownFields : ownFields.ReadValues :=
  ⟨readsValues_boolean, trivial⟩

theorem decode_parts {c : Config} {text : String} (h : codec.decode text = .ok c) :
    SuperTrend.Config.codec.decode text = .ok c.superTrend ∧
      Turtle.Config.codec.decode text = .ok c.turtle := by
  obtain ⟨rest, hread, hend⟩ := Codec.decode_eq_ok.1 h
  obtain ⟨⟨⟨a, b, own⟩, rest⟩, hmerged, hp⟩ := map_eq_ok.1 hread
  cases hp
  obtain ⟨hfirst, hsecond⟩ := Codec.read_of_merged SuperTrend.Config.readValues_fields
    Turtle.Config.readValues_fields readValues_ownFields (by decide) (by decide) hmerged
    "struct SuperTrendConfig" "struct TurtleConfig"
  constructor
  · exact Codec.decode_eq_ok.2 ⟨rest, map_eq_ok.2 ⟨_, hfirst, rfl⟩, hend⟩
  · exact Codec.decode_eq_ok.2 ⟨rest, map_eq_ok.2 ⟨_, hsecond, rfl⟩, hend⟩

/-- The settings of a strategy are written as an object, and those of the strategies in agreement as
the object with the members of both and one more. -/
theorem read_encode {c : Config} (h : Savable c) :
    ∃ members members' : List (String × Value),
      Value.read maxDepth (SuperTrend.Config.codec.encode c.superTrend).toList =
          .ok (.object members, []) ∧
        Value.read maxDepth (Turtle.Config.codec.encode c.turtle).toList =
          .ok (.object members', []) ∧
        Value.read maxDepth (codec.encode c).toList =
          .ok (.object (members ++ members' ++ [("rememberSignal", .boolean c.rememberSignal)]),
            []) := by
  obtain ⟨hsuperTrend, hturtle⟩ := savable_iff_parts.1 h
  obtain ⟨members, hmembers⟩ := SuperTrend.Config.shows_fields hsuperTrend
  obtain ⟨members', hmembers'⟩ := Turtle.Config.shows_fields hturtle
  have hown : ownFields.Shows (c.rememberSignal, ())
      [("rememberSignal", .boolean c.rememberSignal)] :=
    .cons (shows_boolean _) .nil
  refine ⟨members, members', ?_, ?_, ?_⟩
  · exact Codec.read_encode rfl hmembers
  · exact Codec.read_encode rfl hmembers'
  · exact Codec.read_encode rfl (List.rel_append (List.rel_append hmembers hmembers') hown)

/-- The settings of the strategies in agreement are those of both in one object. Whatever text they
are read from, the settings of either strategy are read from it as well, and they are the same. They
are written as one object, with the members of both and then one more, which is read back. And they
are valid just when both halves are. -/
theorem flattens_parts (c : Config) :
    (∀ text, codec.decode text = .ok c →
      SuperTrend.Config.codec.decode text = .ok c.superTrend ∧
        Turtle.Config.codec.decode text = .ok c.turtle) ∧
    (Savable c → codec.decode (codec.encode c) = .ok c ∧
      ∃ members members' : List (String × Value),
        Value.read maxDepth (SuperTrend.Config.codec.encode c.superTrend).toList =
            .ok (.object members, []) ∧
          Value.read maxDepth (Turtle.Config.codec.encode c.turtle).toList =
            .ok (.object members', []) ∧
          Value.read maxDepth (codec.encode c).toList =
            .ok (.object (members ++ members' ++ [("rememberSignal", .boolean c.rememberSignal)]),
              [])) ∧
    (c.validate = .ok () ↔ c.superTrend.validate = .ok () ∧ c.turtle.validate = .ok ()) := by
  refine ⟨fun text => decode_parts, fun h => ⟨?_, read_encode h⟩, validate_eq_ok⟩
  exact Codec.decode_encode (c.readsBackIff_codec.readsBack h) (by decide)

/-- Members of both halves in no order, an unknown one among them and most left out. -/
theorem flattens_parts_unordered :
    let text :=
      "\x7b\"bullPeriod\":3,\"note\":[1,\x7b\x7d],\"rememberSignal\":true,\"atrPeriod\":2\x7d"
    ∃ c, codec.decode text = .ok c ∧ Savable c ∧
      (c.superTrend.rangePeriod, c.turtle.filterPeriod, c.rememberSignal) = (2, 3, true) ∧
      SuperTrend.Config.codec.decode text = .ok c.superTrend ∧
      Turtle.Config.codec.decode text = .ok c.turtle ∧ codec.decode (codec.encode c) = .ok c := by
  intro text
  have hread : (codec.decode text).toOption.map (fun c =>
      (c.superTrend.rangePeriod, c.turtle.filterPeriod, c.rememberSignal)) = some (2, 3, true) := by
    decide +kernel
  cases hdecode : codec.decode text with
  | error e =>
      rw [hdecode] at hread
      cases hread
  | ok c =>
      rw [hdecode] at hread
      have hsave : Savable c := yields_savable.decode hdecode
      obtain ⟨hparts, hencode, -⟩ := flattens_parts c
      obtain ⟨hsuperTrend, hturtle⟩ := hparts text hdecode
      exact ⟨c, rfl, hsave, Option.some.inj hread, hsuperTrend, hturtle, (hencode hsave).1⟩

end Agreement.Config

end SignalEngine
