import Mathlib.Algebra.BigOperators.Group.List.Lemmas
import Mathlib.Algebra.GroupWithZero.Nat
import Mathlib.Data.List.Dedup
import Mathlib.Data.List.Induction
import Mathlib.Data.List.Nodup
import SignalEngine.Session.Collector

/-!
What collecting makes of samples. The collector keeps its series in one place and where each of them
stands in another, and both grow with the first sample of a name. In step they stay: what is kept for
a name is the place of its series, so each sample ends up where those of its name are, and nowhere
else.
-/

namespace SignalEngine

/-- The samples of one name as a series, with the index of the first. -/
def seriesNamed (samples : List (Int × Probe)) (name : String) : DebugSeries :=
  let own := samples.filter (·.2.name == name)
  ⟨name, (own.head?.map (·.2.index)).getD 0, (own.map fun (time, p) => ⟨time, p.value⟩).toArray⟩

/-- The series of a list of samples: one for each name, in the order of the first samples. -/
def seriesOf (samples : List (Int × Probe)) : List DebugSeries :=
  (samples.map (·.2.name)).eraseDups.map (seriesNamed samples)

theorem eraseDups_concat_of_mem {names : List String} {name : String} (h : name ∈ names) :
    (names ++ [name]).eraseDups = names.eraseDups := by
  rw [List.eraseDups_append, List.removeAll, List.filter_cons_of_neg (by simpa using h),
    List.filter_nil, List.eraseDups_nil, List.append_nil]

theorem eraseDups_concat_of_notMem {names : List String} {name : String} (h : name ∉ names) :
    (names ++ [name]).eraseDups = names.eraseDups ++ [name] := by
  rw [List.eraseDups_append, List.removeAll, List.filter_cons_of_pos (by simpa using h),
    List.filter_nil, List.eraseDups_cons, List.filter_nil, List.eraseDups_nil]

theorem nodup_eraseDups (names : List String) : names.eraseDups.Nodup := by
  induction names using List.reverseRecOn with
  | nil => exact List.nodup_nil
  | append_singleton names name ih =>
      by_cases h : name ∈ names
      · rw [eraseDups_concat_of_mem h]
        exact ih
      · rw [eraseDups_concat_of_notMem h]
        refine List.nodup_append.2 ⟨ih, by simp, ?_⟩
        rintro a ha b hb rfl
        rw [List.mem_singleton] at hb
        rw [List.mem_eraseDups] at ha
        exact h (hb ▸ ha)

section Sample

variable (time : Int) (p : Probe)

theorem seriesNamed_concat_of_ne (samples : List (Int × Probe)) {name : String}
    (h : name ≠ p.name) :
    seriesNamed (samples ++ [(time, p)]) name = seriesNamed samples name := by
  rw [seriesNamed, List.filter_append, List.filter_cons_of_neg (by simpa using Ne.symm h),
    List.filter_nil, List.append_nil, seriesNamed]

theorem seriesNamed_concat_self {samples : List (Int × Probe)}
    (h : samples.filter (·.2.name == p.name) ≠ []) :
    seriesNamed (samples ++ [(time, p)]) p.name =
      (seriesNamed samples p.name).push time p.value := by
  obtain ⟨x, own, hown⟩ := List.exists_cons_of_ne_nil h
  rw [seriesNamed, List.filter_append, List.filter_cons_of_pos (by simp), List.filter_nil,
    seriesNamed, DebugSeries.push, hown]
  simp only [List.cons_append, List.head?_cons, List.map_cons, List.map_append, List.map_nil,
    List.push_toArray]

theorem seriesOf_concat_of_mem {samples : List (Int × Probe)}
    (h : p.name ∈ samples.map (·.2.name)) :
    seriesOf (samples ++ [(time, p)]) = (samples.map (·.2.name)).eraseDups.map fun name =>
      if name = p.name then (seriesNamed samples name).push time p.value
      else seriesNamed samples name := by
  rw [seriesOf, List.map_append, List.map_singleton, eraseDups_concat_of_mem h]
  apply List.map_congr_left
  intro name _
  by_cases hname : name = p.name
  · obtain ⟨x, hx, hxname⟩ := List.mem_map.1 h
    have hne : samples.filter (·.2.name == p.name) ≠ [] :=
      List.ne_nil_of_mem (List.mem_filter.2 ⟨hx, beq_iff_eq.2 hxname⟩)
    rw [if_pos hname, hname, seriesNamed_concat_self time p hne]
  · rw [if_neg hname, seriesNamed_concat_of_ne time p samples hname]

theorem seriesOf_concat_of_notMem {samples : List (Int × Probe)}
    (h : p.name ∉ samples.map (·.2.name)) :
    seriesOf (samples ++ [(time, p)]) =
      seriesOf samples ++ [⟨p.name, p.index, #[⟨time, p.value⟩]⟩] := by
  have hnone : samples.filter (·.2.name == p.name) = [] := by
    rw [List.filter_eq_nil_iff]
    intro x hx hname
    exact h (List.mem_map.2 ⟨x, hx, beq_iff_eq.1 hname⟩)
  rw [seriesOf, List.map_append, List.map_singleton, eraseDups_concat_of_notMem h, List.map_append,
    List.map_singleton, seriesOf]
  congr 1
  · apply List.map_congr_left
    intro name hname
    rw [seriesNamed_concat_of_ne]
    rintro rfl
    exact h (List.mem_eraseDups.1 hname)
  · rw [seriesNamed, List.filter_append, hnone, List.filter_cons_of_pos (by simp), List.filter_nil]
    rfl

end Sample

theorem names_seriesOf (samples : List (Int × Probe)) :
    (seriesOf samples).map DebugSeries.name = (samples.map (·.2.name)).eraseDups := by
  rw [seriesOf, List.map_map]
  exact List.map_id _

theorem exists_of_mem_seriesOf {samples : List (Int × Probe)} {s : DebugSeries}
    (h : s ∈ seriesOf samples) :
    ∃ first rest, samples.filter (·.2.name == s.name) = first :: rest ∧
      s.index = first.2.index ∧
      s.points.toList = (first :: rest).map fun (time, p) => ⟨time, p.value⟩ := by
  obtain ⟨name, hname, rfl⟩ := List.mem_map.1 h
  obtain ⟨x, hx, hxname⟩ := List.mem_map.1 (List.mem_eraseDups.1 hname)
  have hne : samples.filter (·.2.name == name) ≠ [] :=
    List.ne_nil_of_mem (List.mem_filter.2 ⟨hx, beq_iff_eq.2 hxname⟩)
  obtain ⟨first, rest, hown⟩ := List.exists_cons_of_ne_nil hne
  refine ⟨first, rest, hown, ?_, ?_⟩
  · rw [seriesNamed, hown]
    rfl
  · rw [seriesNamed, hown]

theorem size_points_seriesNamed (samples : List (Int × Probe)) (name : String) :
    (seriesNamed samples name).points.size = (samples.map (·.2.name)).count name := by
  rw [seriesNamed, List.size_toArray, List.length_map, List.count_eq_countP, List.countP_map,
    List.countP_eq_length_filter]
  rfl

/-- Each sample is one value of one series. -/
theorem sum_points_seriesOf (samples : List (Int × Probe)) :
    ((seriesOf samples).map fun s => s.points.size).sum = samples.length := by
  have hperm : (samples.map (·.2.name)).eraseDups.Perm (samples.map (·.2.name)).dedup := by
    apply (List.perm_ext_iff_of_nodup (nodup_eraseDups _) (List.nodup_dedup _)).2
    intro name
    rw [List.mem_eraseDups, List.mem_dedup]
  rw [seriesOf, List.map_map]
  calc ((samples.map (·.2.name)).eraseDups.map _).sum
      = ((samples.map (·.2.name)).dedup.map fun name =>
          (samples.map (·.2.name)).count name).sum := by
        rw [← (hperm.map _).sum_eq]
        simp only [Function.comp_def, size_points_seriesNamed]
    _ = samples.length := by rw [List.sum_map_count_dedup_eq_length, List.length_map]

theorem idxOf?_concat {names : List String} {name : String} (h : name ∉ names) (other : String) :
    (names ++ [name]).idxOf? other =
      if other = name then some names.length else names.idxOf? other := by
  rw [List.idxOf?, List.findIdx?_append, ← List.idxOf?, List.idxOf?_cons, List.idxOf?_nil]
  by_cases hother : other = name
  · rw [if_pos hother, hother, List.idxOf?_eq_none_iff.2 h, beq_self_eq_true]
    simp
  · rw [if_neg hother, if_neg (by simpa using Ne.symm hother), Option.map_none, Option.map_none,
      Option.or_none]

theorem modify_concat (xs : List α) (x : α) (f : α → α) :
    (xs ++ [x]).modify xs.length f = xs ++ [f x] := by
  induction xs with
  | nil => rfl
  | cons y xs ih => exact congrArg (y :: ·) ih

/-- Where names are distinct, changing what stands at the place of a name changes nothing else. -/
theorem modify_map_of_idxOf? {names : List String} (hnodup : names.Nodup) {name : String} {i : Nat}
    (h : names.idxOf? name = some i) (g : String → α) (f : α → α) :
    (names.map g).modify i f = names.map fun n => if n = name then f (g n) else g n := by
  obtain ⟨hi, hname, -⟩ := List.idxOf?_eq_some_iff.1 h
  apply List.ext_getElem
  · rw [List.length_modify, List.length_map, List.length_map]
  · intro j hj _
    rw [List.length_modify, List.length_map] at hj
    have hplace : names[j] = name ↔ i = j := by
      rw [← hname, hnodup.getElem_inj_iff, eq_comm]
    rw [List.getElem_modify, List.getElem_map, List.getElem_map]
    simp only [hplace]

namespace Collector

/-- The collector holds the series of some samples, each at the place that is kept for its name. -/
structure Files (d : Collector) (samples : List (Int × Probe)) : Prop where
  series : d.series = seriesOf samples
  places : ∀ name, d.places.lookup name = (samples.map (·.2.name)).eraseDups.idxOf? name

namespace Files

variable {d : Collector} {samples : List (Int × Probe)}

theorem empty : Collector.empty.Files [] :=
  ⟨rfl, fun _ => rfl⟩

theorem size_eq (h : d.Files samples) : d.size = (samples.map (·.2.name)).eraseDups.length := by
  have hseries : d.entries.toList = _ := h.series
  rw [size, ← Array.length_toList, hseries, seriesOf, List.length_map]

theorem add (h : d.Files samples) (time : Int) (p : Probe) :
    (d.add time p).Files (samples ++ [(time, p)]) := by
  have hseries : d.entries.toList = _ := h.series
  have hplace := h.places p.name
  by_cases hmem : p.name ∈ samples.map (·.2.name)
  · obtain ⟨i, hi⟩ := Option.isSome_iff_exists.1
      (List.isSome_idxOf?.2 (List.mem_eraseDups.2 hmem))
    rw [hi] at hplace
    rw [Collector.add, place, hplace]
    refine ⟨?_, fun name => ?_⟩
    · rw [Collector.series, Array.toList_modify, hseries, seriesOf_concat_of_mem time p hmem]
      exact modify_map_of_idxOf? (nodup_eraseDups _) hi _ _
    · rw [List.map_append, List.map_singleton, eraseDups_concat_of_mem hmem]
      exact h.places name
  · have hnew : p.name ∉ (samples.map (·.2.name)).eraseDups := mt List.mem_eraseDups.1 hmem
    rw [List.idxOf?_eq_none_iff.2 hnew] at hplace
    rw [Collector.add, place, hplace]
    refine ⟨?_, fun name => ?_⟩
    · rw [Collector.series, Array.toList_modify, Array.toList_push, size, ← Array.length_toList,
        modify_concat, hseries, seriesOf_concat_of_notMem time p hmem]
      rfl
    · rw [List.map_append, List.map_singleton, eraseDups_concat_of_notMem hmem,
        idxOf?_concat hnew, ← h.places name, ← h.size_eq, List.lookup_cons]
      by_cases hname : name = p.name
      · rw [if_pos hname, beq_iff_eq.2 hname]
      · rw [if_neg hname, beq_eq_false_iff_ne.2 hname]

end Files

/-- The collector that has taken in some samples. -/
def ofSamples (samples : List (Int × Probe)) : Collector :=
  samples.foldl (fun d (time, p) => d.add time p) .empty

theorem files_ofSamples (samples : List (Int × Probe)) : (ofSamples samples).Files samples := by
  induction samples using List.reverseRecOn with
  | nil => exact .empty
  | append_singleton samples x ih =>
      rw [ofSamples, List.foldl_append]
      exact ih.add x.1 x.2

theorem record_ofSamples (samples : List (Int × Probe)) (c : Candle) (probes : List Probe) :
    (ofSamples samples).record c probes = ofSamples (samples ++ probes.map (c.wholeSecond, ·)) := by
  rw [record, ofSamples, ofSamples, List.foldl_append, List.foldl_map]

end Collector

/-- One time is the last whole second that is not after another; both are in milliseconds. -/
structure RoundsDown (time second : Int) : Prop where
  whole : 1000 ∣ second
  le : second ≤ time
  lt : time < second + 1000

theorem Candle.wholeSecond_eq {c : Candle} {second : Int} (h : RoundsDown c.timestamp second)
    (hfits : Number.fitsSigned 63 second = true) : c.wholeSecond = second := by
  have hsecond : c.timestamp / 1000 * 1000 = second := by
    obtain ⟨hwhole, hle, hlt⟩ := h
    omega
  rw [wholeSecond, hsecond, Number.wrapSigned_of_fitsSigned hfits]

/-- The probes of some calls, in the order in which they come in, each at the time of its candle. -/
def samplesOf (calls : List (Candle × List Probe)) : List (Int × Probe) :=
  calls.flatMap fun (c, probes) => probes.map (c.wholeSecond, ·)

theorem samplesOf_concat (calls : List (Candle × List Probe)) (c : Candle) (probes : List Probe) :
    samplesOf (calls ++ [(c, probes)]) = samplesOf calls ++ probes.map (c.wholeSecond, ·) := by
  rw [samplesOf, List.flatMap_append, List.flatMap_singleton, ← samplesOf]

theorem length_samplesOf (calls : List (Candle × List Probe)) :
    (samplesOf calls).length = (calls.map fun call => call.2.length).sum := by
  simp only [samplesOf, List.length_flatMap, List.length_map]

namespace Collector

/-- The collector after some calls. -/
def recordAll (calls : List (Candle × List Probe)) : Collector :=
  calls.foldl (fun d (c, probes) => d.record c probes) .empty

theorem recordAll_eq (calls : List (Candle × List Probe)) :
    recordAll calls = ofSamples (samplesOf calls) := by
  induction calls using List.reverseRecOn with
  | nil => rfl
  | append_singleton calls call ih =>
      rw [recordAll, List.foldl_append, ← recordAll, ih, samplesOf_concat]
      exact record_ofSamples _ call.1 call.2

/-- Whatever names and indices the probes of some calls have: each name has one series, in the order
in which the names come first, with the index of its first probe. The values of a series are those of
all probes with its name in the order in which they came, each at the whole second in which its candle
began, and every probe has its value. -/
theorem recordAll_groups (calls : List (Candle × List Probe)) :
    let samples := samplesOf calls
    let series := (recordAll calls).series
    (series.map DebugSeries.name).Nodup ∧
      series.map DebugSeries.name = (samples.map (·.2.name)).eraseDups ∧
      (∀ s ∈ series, ∃ first rest, samples.filter (·.2.name == s.name) = first :: rest ∧
        s.index = first.2.index ∧
        s.points.toList = (first :: rest).map fun (time, p) => ⟨time, p.value⟩) ∧
      (series.map fun s => s.points.size).sum = (calls.map fun call => call.2.length).sum ∧
      ∀ call ∈ calls, ∀ second, RoundsDown call.1.timestamp second →
        Number.fitsSigned 63 second = true → call.1.wholeSecond = second := by
  intro samples series
  have hseries : series = seriesOf samples := by
    simp only [series, recordAll_eq]
    exact (files_ofSamples samples).series
  have hnames : series.map DebugSeries.name = (samples.map (·.2.name)).eraseDups := by
    rw [hseries, names_seriesOf]
  refine ⟨hnames ▸ nodup_eraseDups _, hnames, fun s hs => ?_, ?_, fun call _ second => ?_⟩
  · exact exists_of_mem_seriesOf (hseries ▸ hs)
  · rw [hseries, sum_points_seriesOf, length_samplesOf]
  · exact Candle.wholeSecond_eq

/-- A name that comes twice in one call, and again later with another index, has one series; a time
before 1970 is rounded down like any other. -/
theorem recordAll_groups_reused :
    let early : Candle := .ofPrices (-1500) 0.0 0.0 0.0 0.0 0.0
    let calls : List (Candle × List Probe) :=
      [(early, [⟨"b", 1, 1.0⟩, ⟨"a", 0, 2.0⟩, ⟨"b", 7, 3.0⟩]), (.ofClose 1.0, [⟨"b", 5, 4.0⟩])]
    RoundsDown early.timestamp (-2000) ∧ Number.fitsSigned 63 (-2000) = true ∧
      early.wholeSecond = -2000 ∧
      (recordAll calls).series.map DebugSeries.name = ["b", "a"] ∧
      ((recordAll calls).series.map fun s => s.points.size).sum = 4 := by
  intro early calls
  have hsecond : RoundsDown early.timestamp (-2000) := ⟨by decide, by decide, by decide⟩
  have hfits : Number.fitsSigned 63 (-2000) = true := by decide
  obtain ⟨-, hnames, -, htotal, htimes⟩ := recordAll_groups calls
  exact ⟨hsecond, hfits, htimes _ List.mem_cons_self _ hsecond hfits, hnames.trans (by decide),
    htotal⟩

end Collector

end SignalEngine
