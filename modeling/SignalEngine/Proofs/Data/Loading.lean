import Mathlib.Data.List.Forall2
import SignalEngine.Data.CandleFile

namespace SignalEngine.CandleFile

section Sorting

variable (candles : List Candle)

theorem sortByTime_perm : (sortByTime candles).Perm candles :=
  List.mergeSort_perm _ _

theorem pairwise_sortByTime : (sortByTime candles).Pairwise fun a b => a.timestamp ≤ b.timestamp := by
  have hsorted : (sortByTime candles).Pairwise fun a b => decide (a.timestamp ≤ b.timestamp) = true :=
    List.pairwise_mergeSort (by simpa using fun a b c : Candle => Int.le_trans)
      (by simpa using fun a b : Candle => Int.le_total a.timestamp b.timestamp) candles
  exact hsorted.imp of_decide_eq_true

/-- Sorting keeps the order of the candles of one time. -/
theorem filter_sortByTime (time : Int) :
    (sortByTime candles).filter (·.timestamp = time) = candles.filter (·.timestamp = time) := by
  have hsame : (candles.filter (·.timestamp = time)).Pairwise
      fun a b => decide (a.timestamp ≤ b.timestamp) = true := by
    apply List.pairwise_of_forall_mem_list
    intro a ha b hb
    simp only [List.mem_filter, decide_eq_true_iff] at ha hb
    exact decide_eq_true (Int.le_of_eq (ha.2.trans hb.2.symm))
  have hsublist : (candles.filter (·.timestamp = time)).Sublist (sortByTime candles) :=
    List.sublist_mergeSort (by simpa using fun a b c : Candle => Int.le_trans)
      (by simpa using fun a b : Candle => Int.le_total a.timestamp b.timestamp) hsame
      List.filter_sublist
  have hfilter := hsublist.filter (·.timestamp = time)
  rw [List.filter_filter] at hfilter
  simp only [Bool.and_self] at hfilter
  exact (hfilter.eq_of_length ((sortByTime_perm candles).filter _).length_eq.symm).symm

end Sorting

def headings (text : String) : List String :=
  ((Table.rows text).headD []).map String.ofList

/-- The rows below the names. -/
def body (text : String) : List (List (List Char)) :=
  (Table.rows text).tail

/-- The fields of a row decode, and its date is a time. -/
def isReadable (headings : List String) (fields : List (List Char)) : Bool :=
  match readFields headings fields 0 .blank with
  | .ok row => (Timestamp.parse? row.date).isSome
  | .error _ => false

/-- What a row decodes to, stamped with where it comes from. -/
def DecodesTo (headings : List String) (market symbol : Nat) (interval : Interval)
    (fields : List (List Char)) (c : Candle) : Prop :=
  ∃ row time, readFields headings fields 0 .blank = .ok row ∧
    Timestamp.parse? row.date = some time ∧
    c = ⟨market, symbol, interval, time, row.opening, row.high, row.low, row.close, row.volume⟩

/-- Why a row at a place is no candle. -/
inductive IsFault (headings : List String) (place : Nat) (fields : List (List Char)) :
    DataError → Prop
  | row {fault : RowFault} (h : readFields headings fields 0 .blank = .error fault) :
      IsFault headings place fields (.badRow place fault)
  | date {row : Row} (h : readFields headings fields 0 .blank = .ok row)
      (hdate : Timestamp.parse? row.date = none) :
      IsFault headings place fields (.badDate (String.ofList row.date))

section Rows

variable {names : List String} {fields : List (List Char)} {rows : List (List (List Char))}

theorem IsFault.exists_message {place : Nat} {fault : DataError}
    (h : IsFault names place fields fault) : ∃ reason, fault.message = "Parse error: " ++ reason := by
  cases h with
  | row h => exact ⟨_, rfl⟩
  | date h hdate => exact ⟨_, rfl⟩

theorem readRow_of_readable (h : isReadable names fields = true) (place market symbol : Nat)
    (interval : Interval) :
    ∃ c, readRow names place fields = .ok c ∧
      DecodesTo names market symbol interval fields (c.withSource market symbol interval) := by
  rw [isReadable] at h
  split at h
  case h_1 row hrow =>
    obtain ⟨time, htime⟩ := Option.isSome_iff_exists.1 h
    refine ⟨.ofPrices time row.opening row.high row.low row.close row.volume, ?_,
      row, time, hrow, htime, rfl⟩
    simp only [readRow, hrow, htime, bind, Except.bind, Except.mapError, pure, Except.pure]
  case h_2 => cases h

theorem readRow_of_not_readable (h : isReadable names fields = false) (place : Nat) :
    ∃ fault, readRow names place fields = .error fault ∧ IsFault names place fields fault := by
  rw [isReadable] at h
  split at h
  case h_1 row hrow =>
    have hdate := Option.isSome_eq_false_iff.1 h
    rw [Option.isNone_iff_eq_none] at hdate
    refine ⟨_, ?_, .date hrow hdate⟩
    simp only [readRow, hrow, hdate, bind, Except.bind, Except.mapError]
    rfl
  case h_2 fault hfault =>
    refine ⟨_, ?_, .row hfault⟩
    simp only [readRow, hfault, bind, Except.bind, Except.mapError]

theorem readRows_of_readable (h : ∀ fields ∈ rows, isReadable names fields = true)
    (place market symbol : Nat) (interval : Interval) :
    ∃ candles, readRows names place rows = .ok candles ∧
      List.Forall₂ (DecodesTo names market symbol interval) rows
        (candles.map (Candle.withSource market symbol interval)) := by
  induction rows generalizing place with
  | nil => exact ⟨[], rfl, .nil⟩
  | cons fields rows ih =>
      obtain ⟨hfields, hrows⟩ := List.forall_mem_cons.1 h
      obtain ⟨c, hread, hdecodes⟩ := readRow_of_readable hfields place market symbol interval
      obtain ⟨candles, hrest, hall⟩ := ih hrows (place + 1)
      refine ⟨c :: candles, ?_, .cons hdecodes hall⟩
      simp only [readRows, hread, hrest, bind, Except.bind, pure, Except.pure]

/-- The first row that is no candle decides; the rows after it are not looked at. -/
theorem readRows_of_findIdx? {i : Nat}
    (h : rows.findIdx? (fun fields => !isReadable names fields) = some i) (place : Nat) :
    ∃ fields fault, rows[i]? = some fields ∧ IsFault names (place + i) fields fault ∧
      readRows names place rows = .error fault := by
  induction rows generalizing place i with
  | nil => cases h
  | cons fields rows ih =>
      rw [List.findIdx?_cons] at h
      cases hfields : isReadable names fields with
      | false =>
          obtain ⟨fault, hread, hfault⟩ := readRow_of_not_readable hfields place
          rw [hfields, Bool.not_false, if_pos rfl] at h
          cases h
          refine ⟨fields, fault, rfl, hfault, ?_⟩
          simp only [readRows, hread, bind, Except.bind]
      | true =>
          obtain ⟨c, hread, -⟩ := readRow_of_readable hfields place 0 0 Interval.standard
          rw [hfields, Bool.not_true, if_neg Bool.false_ne_true] at h
          obtain ⟨j, hj, rfl⟩ := Option.map_eq_some_iff.1 h
          obtain ⟨later, fault, hlater, hfault, hrest⟩ := ih hj (place + 1)
          rw [Nat.add_assoc, Nat.add_comm 1 j] at hfault
          refine ⟨later, fault, hlater, hfault, ?_⟩
          simp only [readRows, hread, hrest, bind, Except.bind]

end Rows

section Tables

variable {text : String} (market symbol : Nat) (interval : Interval)

theorem load_eq (text : String) :
    load text market symbol interval = (do
      let candles ← readRows (headings text) 1 (body text)
      if candles.isEmpty then throw .noData
      return sortByTime (candles.map (Candle.withSource market symbol interval))) := by
  rw [load, headings, body]
  cases Table.rows text with
  | nil => rfl
  | cons names rows => rfl

theorem load_of_fault {fault : DataError}
    (h : readRows (headings text) 1 (body text) = .error fault) :
    load text market symbol interval = .error fault := by
  rw [load_eq]
  simp only [h, bind, Except.bind]

theorem load_of_no_rows (h : body text = []) :
    load text market symbol interval = .error .noData := by
  rw [load_eq, h]
  rfl

theorem load_of_readable (hsome : body text ≠ [])
    (h : ∀ fields ∈ body text, isReadable (headings text) fields = true) :
    ∃ decoded, List.Forall₂ (DecodesTo (headings text) market symbol interval) (body text) decoded ∧
      load text market symbol interval = .ok (sortByTime decoded) := by
  obtain ⟨candles, hread, hall⟩ := readRows_of_readable h 1 market symbol interval
  have hne : candles.isEmpty = false := by
    have hlength := hall.length_eq
    rw [List.length_map] at hlength
    rw [List.isEmpty_eq_false_iff, ← List.length_pos_iff, ← hlength, List.length_pos_iff]
    exact hsome
  refine ⟨_, hall, ?_⟩
  rw [load_eq]
  simp only [hread, bind, Except.bind, hne]
  rfl

end Tables

/-- What loading a table comes to, told by its first row that is no candle. If there is such a row, its
fault is reported and nothing else. If there are no rows at all, there are no data. Otherwise the
candles are those of the rows, each stamped with its source, in the order of their times, and those of
one time in the order of their rows. -/
theorem load_sorts (text : String) (market symbol : Nat) (interval : Interval) :
    match (body text).findIdx? (fun fields => !isReadable (headings text) fields) with
    | some i => ∃ fields fault reason, (body text)[i]? = some fields ∧
        IsFault (headings text) (i + 1) fields fault ∧
        fault.message = "Parse error: " ++ reason ∧
        load text market symbol interval = .error fault
    | none =>
        if body text = [] then load text market symbol interval = .error .noData
        else ∃ decoded sorted,
          List.Forall₂ (DecodesTo (headings text) market symbol interval) (body text) decoded ∧
          load text market symbol interval = .ok sorted ∧
          sorted.length = (body text).length ∧ sorted.Perm decoded ∧
          (sorted.Pairwise fun a b => a.timestamp ≤ b.timestamp) ∧
          ∀ time, sorted.filter (·.timestamp = time) = decoded.filter (·.timestamp = time) := by
  cases hfind : (body text).findIdx? (fun fields => !isReadable (headings text) fields) with
  | some i =>
      obtain ⟨fields, fault, hfields, hfault, hrows⟩ := readRows_of_findIdx? hfind 1
      rw [Nat.add_comm] at hfault
      obtain ⟨reason, hreason⟩ := hfault.exists_message
      exact ⟨fields, fault, reason, hfields, hfault, hreason, load_of_fault _ _ _ hrows⟩
  | none =>
      have hreadable : ∀ fields ∈ body text, isReadable (headings text) fields = true := by
        simpa using List.findIdx?_eq_none_iff.1 hfind
      dsimp only
      split
      case isTrue hnone => exact load_of_no_rows _ _ _ hnone
      case isFalse hsome =>
        obtain ⟨decoded, hall, hload⟩ := load_of_readable market symbol interval hsome hreadable
        have hperm := sortByTime_perm decoded
        exact ⟨decoded, sortByTime decoded, hall, hload, hperm.length_eq.trans hall.length_eq.symm,
          hperm, pairwise_sortByTime _, filter_sortByTime _⟩

end SignalEngine.CandleFile
