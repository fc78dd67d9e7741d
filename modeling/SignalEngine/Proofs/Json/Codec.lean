import SignalEngine.Proofs.Json.Scan

namespace SignalEngine.Json

open Number (Parts wireText)

namespace Codec

variable {α β : Type}

/-- What is written of a value is read as the value, and what follows is left. -/
def ReadsBack (c : Codec α) (n : Nat) (a : α) : Prop :=
  ∀ ⦃depth rest⦄, n ≤ depth → Delimited rest → c.read depth (c.write a ++ rest) = .ok (a, rest)

/-- What is written of a value cannot be read. -/
def Refuses (c : Codec α) (n : Nat) (a : α) : Prop :=
  ∀ ⦃depth rest⦄, n ≤ depth → Delimited rest → ∃ e, c.read depth (c.write a ++ rest) = .error e

/-- A value is read back under a condition, and refused without it. The number is that of the
brackets that its text may open at once. -/
structure ReadsBackIff (c : Codec α) (n : Nat) (a : α) (p : Prop) : Prop where
  readsBack : p → c.ReadsBack n a
  refuses : ¬ p → c.Refuses n a

theorem ReadsBackIff.of_readsBack {c : Codec α} {n : Nat} {a : α} (h : c.ReadsBack n a) :
    c.ReadsBackIff n a True :=
  ⟨fun _ => h, fun hn => absurd trivial hn⟩

theorem ReadsBackIff.congr {c : Codec α} {n : Nat} {a : α} {p q : Prop} (h : c.ReadsBackIff n a p)
    (hpq : p ↔ q) : c.ReadsBackIff n a q := by
  rw [← hpq]
  exact h

theorem ReadsBackIff.map {c : Codec α} {n : Nat} {b : β} {p : Prop} {wrap : α → β} {unwrap : β → α}
    (h : c.ReadsBackIff n (unwrap b) p) (hwrap : wrap (unwrap b) = b) :
    (c.map wrap unwrap).ReadsBackIff n b p := by
  constructor
  · intro hp depth rest hd hrest
    simp only [Codec.map, h.readsBack hp hd hrest, Except.map, hwrap]
  · intro hp depth rest hd hrest
    obtain ⟨e, he⟩ := h.refuses hp hd hrest
    exact ⟨e, by simp only [Codec.map, he, Except.map]⟩

theorem toList_encode (c : Codec α) (a : α) : (c.encode a).toList = c.write a := by
  rw [Codec.encode, String.toList_ofList]

theorem decode_encode {c : Codec α} {n : Nat} {a : α} (h : c.ReadsBack n a) (hn : n ≤ maxDepth) :
    c.decode (c.encode a) = .ok a := by
  have hread := h hn delimited_nil
  rw [List.append_nil] at hread
  rw [Codec.decode, toList_encode, hread]
  rfl

theorem decode_encode_error {c : Codec α} {n : Nat} {a : α} (h : c.Refuses n a)
    (hn : n ≤ maxDepth) :
    ∃ e, c.decode (c.encode a) = .error e := by
  obtain ⟨e, he⟩ := h hn delimited_nil
  rw [List.append_nil] at he
  exact ⟨e, by rw [Codec.decode, toList_encode, he]; rfl⟩

theorem scalar_of_lead (accept : Lead → Except Error α) {cs rest : List Char} {l : Lead}
    (h : lead cs = .ok (l, rest)) : scalar accept cs = (accept l).map fun a => (a, rest) := by
  simp only [scalar, h, bind, Except.bind]
  cases accept l <;> rfl

theorem scalar_of_lead_error (accept : Lead → Except Error α) {cs : List Char} {e : Error}
    (h : lead cs = .error e) : scalar accept cs = .error e := by
  simp only [scalar, h, bind, Except.bind]

theorem lead_null {rest : List Char} :
    lead (['n', 'u', 'l', 'l'] ++ rest) = .ok (.null, rest) := rfl

theorem readsBackIff_text {k : Nat} (s : String) : Codec.text.ReadsBackIff k s True := by
  apply ReadsBackIff.of_readsBack
  intro depth rest _ _
  exact scalar_of_lead _ (lead_stringText s rest)

theorem readsBackIff_boolean {k : Nat} (b : Bool) : Codec.boolean.ReadsBackIff k b True := by
  apply ReadsBackIff.of_readsBack
  intro depth rest _ _
  cases b with
  | true => exact scalar_of_lead acceptBoolean (l := .boolean true) rfl
  | false => exact scalar_of_lead acceptBoolean (l := .boolean false) rfl

theorem readsBackIff_real {k : Nat} (x : Float) :
    Codec.real.ReadsBackIff k x (x.isFinite = true) := by
  constructor
  · intro hx depth rest _ hrest
    simp only [Codec.real, if_pos hx]
    exact scalar_of_lead _ (lead_wireText hx hrest)
  · intro hx depth rest _ hrest
    simp only [Codec.real, if_neg hx]
    exact ⟨_, scalar_of_lead _ lead_null⟩

theorem special?_specialWord {x : Float} (hx : ¬ x.isFinite) :
    special? (specialWord x) = some x := by
  rcases Number.eq_of_not_isFinite hx with ⟨hnan, rfl⟩ | ⟨hnan, hlt, rfl⟩ | ⟨hnan, hlt, rfl⟩
  · rfl
  · rw [specialWord, if_neg (by rw [hnan]; decide), if_pos hlt]
    rfl
  · rw [specialWord, if_neg (by rw [hnan]; decide), if_neg hlt]
    rfl

theorem readsBackIff_lossless {k : Nat} (x : Float) : Codec.lossless.ReadsBackIff k x True := by
  apply ReadsBackIff.of_readsBack
  intro depth rest _ hrest
  by_cases hx : x.isFinite
  · simp only [Codec.lossless, if_pos hx]
    exact scalar_of_lead _ (lead_wireText hx hrest)
  · simp only [Codec.lossless, if_neg hx]
    rw [scalar_of_lead _ (lead_stringText _ rest), acceptLossless, special?_specialWord hx]
    rfl

def integerParts (n : Int) : Parts :=
  ⟨Nat.toDigits 10 n.natAbs, none, none⟩

theorem wellFormed_integerParts (n : Int) : (integerParts n).WellFormed := by
  refine ⟨Nat.toDigits_ne_nil, fun c hc => Nat.isDigit_of_mem_toDigits (by decide) (by decide) hc,
    ?_, by simp [integerParts], by simp [integerParts]⟩
  intro hzero
  by_cases hn : n = 0
  · subst hn
    rfl
  · exact absurd rfl (Number.head_toDigits_ne_zero (by omega) '0' hzero)

theorem lead_intText (n : Int) {rest : List Char} (h : Delimited rest) :
    lead (Number.intText n ++ rest) =
      (numberLead (decide (n < 0)) (integerParts n)).map fun l => (l, rest) := by
  rw [← lead_signed _ (wellFormed_integerParts n) h]
  simp [Number.intText, Parts.text, integerParts, Parts.fractionText, Parts.exponentText]

theorem numberLead_of_fits {n : Int} (hlow : -2 ^ 63 ≤ n) (hhigh : n < 2 ^ 64) :
    numberLead (decide (n < 0)) (integerParts n) = .ok (.integer n) := by
  simp only [numberLead, integerParts, Option.isSome_none, Bool.or_false, Bool.false_eq_true,
    if_false, wholeNumber, Number.natOfDigits_toDigits, decide_eq_true_eq, Number.fits,
    Number.wordValues, Nat.pow_eq]
  split
  · rw [if_neg (by omega)]
    congr 2
    rw [Int.ofNat_eq_natCast]
    omega
  · rw [if_pos (by omega)]
    congr 2
    omega

theorem numberLead_of_not_fits {n m : Int} (hn : ¬ (-2 ^ 63 ≤ n ∧ n < 2 ^ 64)) :
    numberLead (decide (n < 0)) (integerParts n) ≠ .ok (.integer m) := by
  have hreal : ∀ negative numeral, realNumber negative numeral ≠ .ok (.integer m) := by
    intro negative numeral
    unfold realNumber
    dsimp only
    split <;> simp
  simp only [numberLead, integerParts, Option.isSome_none, Bool.or_false, Bool.false_eq_true,
    if_false, wholeNumber, Number.natOfDigits_toDigits, decide_eq_true_eq, Number.fits,
    Number.wordValues, Nat.pow_eq]
  split
  · rw [if_pos (by omega)]
    exact hreal _ _
  · rw [if_neg (by omega)]
    exact hreal _ _

theorem readsBackIff_integer {low high : Int} {k : Nat} (name : String) (hlow : -2 ^ 63 ≤ low)
    (hhigh : high ≤ 2 ^ 64) (n : Int) :
    (Codec.integer low high name).ReadsBackIff k n (low ≤ n ∧ n < high) := by
  constructor
  · rintro ⟨hl, hh⟩ depth rest _ hrest
    have hlead := lead_intText n hrest
    rw [numberLead_of_fits (hlow.trans hl) (hh.trans_le hhigh)] at hlead
    simp only [Codec.integer]
    rw [scalar_of_lead _ hlead, acceptInteger, if_pos ⟨hl, hh⟩]
    rfl
  · intro hn depth rest _ hrest
    have hlead := lead_intText n hrest
    simp only [Codec.integer]
    cases hl : numberLead (decide (n < 0)) (integerParts n) with
    | error e =>
        rw [hl] at hlead
        exact ⟨e, scalar_of_lead_error _ hlead⟩
    | ok l =>
        rw [hl] at hlead
        rw [scalar_of_lead _ hlead]
        have haccept : ∃ e, acceptInteger low high name l = .error e := by
          cases l with
          | integer m =>
              by_cases hfits : -2 ^ 63 ≤ n ∧ n < 2 ^ 64
              · rw [numberLead_of_fits hfits.1 hfits.2] at hl
                cases hl
                exact ⟨_, if_neg hn⟩
              · exact absurd hl (numberLead_of_not_fits hfits)
          | _ => exact ⟨_, rfl⟩
        obtain ⟨e, he⟩ := haccept
        exact ⟨e, by rw [he]; rfl⟩

theorem readsBackIff_natural {bound k : Nat} (name : String) (hbound : bound ≤ 2 ^ 64) (n : Nat) :
    (Codec.natural bound name).ReadsBackIff k n (n < bound) := by
  have h : (Codec.integer 0 bound name).ReadsBackIff k (Int.ofNat n)
      (0 ≤ Int.ofNat n ∧ Int.ofNat n < bound) :=
    readsBackIff_integer name (by norm_num) (by exact_mod_cast hbound) _
  have hmap : (Codec.natural bound name).ReadsBackIff k n _ := h.map (Int.toNat_natCast n)
  apply hmap.congr
  rw [Int.ofNat_eq_natCast]
  omega

theorem readsBackIff_count {k : Nat} (n : Nat) : Codec.count.ReadsBackIff k n (n < 2 ^ 64) :=
  readsBackIff_natural "usize" le_rfl n

theorem readsBackIff_identifier {k : Nat} (n : Nat) :
    Codec.identifier.ReadsBackIff k n (n < 2 ^ 32) :=
  readsBackIff_natural "u32" (by norm_num [Number.wordValues]) n

theorem readsBackIff_time {k : Nat} (n : Int) :
    Codec.time.ReadsBackIff k n (-2 ^ 63 ≤ n ∧ n < 2 ^ 63) :=
  readsBackIff_integer "i64" le_rfl (by decide) n

theorem readsBackIff_small {k : Nat} (n : Int) :
    Codec.small.ReadsBackIff k n (-2 ^ 31 ≤ n ∧ n < 2 ^ 31) :=
  readsBackIff_integer "i32" (by decide) (by decide) n

def Opens (cs : List Char) : Prop :=
  ∃ c rest, cs = c :: rest ∧ isSpace c = false ∧ c ≠ 'n' ∧ c ≠ ']'

theorem opens_stringText (s : String) : Opens (stringText s) :=
  ⟨'"', _, rfl, rfl, by decide, by decide⟩

theorem opens_wireText {x : Float} (hx : x.isFinite) : Opens (wireText x) := by
  obtain ⟨p, hp, -, htext, -⟩ := Number.exists_parts_wireText hx
  rw [htext]
  cases Number.isNegative x with
  | true => exact ⟨'-', _, rfl, rfl, by decide, by decide⟩
  | false =>
      match hwhole : p.whole, hp.whole_ne_nil with
      | c :: digits, _ =>
          have hdigit := hp.whole_isDigit c (by rw [hwhole]; exact List.mem_cons_self)
          have hne : ∀ d : Char, d.isDigit = false → c ≠ d := by
            rintro d hd rfl
            rw [hdigit] at hd
            cases hd
          refine ⟨c, digits ++ (Parts.fractionText p.fraction ++ Parts.exponentText p.exponent), ?_,
            ?_, hne _ rfl, hne _ rfl⟩
          · rw [Number.signed, if_neg Bool.false_ne_true, Parts.text, hwhole]
            rfl
          · simp [isSpace, hne ' ' rfl, hne '\t' rfl, hne '\n' rfl, hne '\r' rfl]

theorem opens_real {x : Float} (hx : x.isFinite) : Opens (Codec.real.write x) := by
  simp only [Codec.real, if_pos hx]
  exact opens_wireText hx

theorem opens_lossless (x : Float) : Opens (Codec.lossless.write x) := by
  simp only [Codec.lossless]
  split
  · rename_i hx
    exact opens_wireText hx
  · exact opens_stringText _

theorem option_read_of_opens {c : Codec α} {depth : Nat} {cs rest : List Char} (h : Opens cs) :
    c.option.read depth (cs ++ rest) =
      (c.read depth (cs ++ rest)).map fun (a, rest) => (some a, rest) := by
  obtain ⟨d, ds, rfl, hspace, hn, -⟩ := h
  simp only [Codec.option, List.cons_append]
  rw [skipSpaces_cons hspace]
  split
  · rename_i heq
    exact absurd (List.head_eq_of_cons_eq heq) hn
  · rfl

theorem readsBackIff_some {c : Codec α} {n : Nat} {a : α} {p : Prop} (h : c.ReadsBackIff n a p)
    (hopens : Opens (c.write a)) : c.option.ReadsBackIff n (some a) p := by
  constructor
  · intro hp depth rest hd hrest
    change c.option.read depth (c.write a ++ rest) = _
    rw [option_read_of_opens hopens, h.readsBack hp hd hrest]
    rfl
  · intro hp depth rest hd hrest
    obtain ⟨e, he⟩ := h.refuses hp hd hrest
    refine ⟨e, ?_⟩
    change c.option.read depth (c.write a ++ rest) = _
    rw [option_read_of_opens hopens, he]
    rfl

theorem readsBackIff_none (c : Codec α) (n : Nat) : c.option.ReadsBackIff n none True := by
  apply ReadsBackIff.of_readsBack
  intro depth rest _ _
  rfl

theorem separated_cons (item : List Char) (items : List (List Char)) :
    separated (item :: items) = item ++ items.flatMap (',' :: ·) := by
  induction items generalizing item with
  | nil => simp [separated]
  | cons next items ih =>
      rw [separated, ih, List.flatMap_cons, List.cons_append]
      exact List.cons_ne_nil _ _

theorem nextElement_first {cs rest : List Char} (h : Opens cs) :
    nextElement true (cs ++ rest) = .ok (true, cs ++ rest) := by
  obtain ⟨c, ds, rfl, hspace, -, hbracket⟩ := h
  rw [List.cons_append, nextElement, skipSpaces_cons hspace]
  split
  · rename_i heq
    cases heq
  · rename_i heq
    exact absurd (List.head_eq_of_cons_eq heq) hbracket
  · rename_i heq
    obtain ⟨rfl, rfl⟩ := List.cons.inj heq
    rfl

theorem nextElement_comma {cs rest : List Char} (h : Opens cs) :
    nextElement false (',' :: (cs ++ rest)) = .ok (true, cs ++ rest) := by
  obtain ⟨c, ds, rfl, hspace, -, hbracket⟩ := h
  rw [List.cons_append, nextElement, skipSpaces_cons rfl]
  split
  · rename_i heq
    cases heq
  · rename_i heq
    exact absurd (List.head_eq_of_cons_eq heq) (by decide)
  · rename_i heq
    obtain ⟨rfl, rfl⟩ := List.cons.inj heq
    rw [if_neg Bool.false_ne_true, if_pos rfl, skipSpaces_cons hspace]
    split
    · rename_i heq
      cases heq
    · rename_i heq
      exact absurd (List.head_eq_of_cons_eq heq) hbracket
    · rfl

theorem nextElement_end (first : Bool) (rest : List Char) :
    nextElement first (']' :: rest) = .ok (false, rest) := by
  rw [nextElement, skipSpaces_cons rfl]
  rfl

theorem delimited_elements (items : List (List Char)) (rest : List Char) :
    Delimited (items.flatMap (',' :: ·) ++ ']' :: rest) := by
  cases items with
  | nil => exact delimited_bracket rest
  | cons item items => exact delimited_comma _

/-- The elements after the first are read one by one. The text that bounds the steps is longer than
the list. -/
theorem elementsFrom_append {c : Codec α} {n depth : Nat} {items : List α} (hd : n ≤ depth)
    (h : ∀ a ∈ items, c.ReadsBack n a ∧ Opens (c.write a)) (bound : List Char)
    (hbound : items.length < bound.length) (read : List α) (rest : List Char) :
    elementsFrom (c.read depth) bound false read
      ((items.map c.write).flatMap (',' :: ·) ++ ']' :: rest) =
        .ok (read.reverse ++ items, rest) := by
  induction items generalizing bound read with
  | nil =>
      match bound, hbound with
      | _ :: bound, _ =>
          rw [elementsFrom]
          simp only [List.map_nil, List.flatMap_nil, List.nil_append, nextElement_end, bind,
            Except.bind, List.append_nil]
          rfl
  | cons a items ih =>
      match bound, hbound with
      | _ :: bound, hbound =>
          obtain ⟨hread, hopens⟩ := h a List.mem_cons_self
          have hrest := hread hd (delimited_elements (items.map c.write) rest)
          have hnext := ih (fun b hb => h b (List.mem_cons_of_mem _ hb)) bound
            (Nat.lt_of_succ_lt_succ hbound) (a :: read)
          rw [List.reverse_cons, List.append_assoc] at hnext
          rw [elementsFrom, List.map_cons, List.flatMap_cons, List.cons_append, List.cons_append,
            List.append_assoc, nextElement_comma hopens]
          simp only [bind, Except.bind, if_true, hrest]
          exact hnext

theorem length_le_flatMap (items : List (List Char)) :
    items.length ≤ (items.flatMap (',' :: ·)).length := by
  induction items with
  | nil => exact le_rfl
  | cons item items ih =>
      rw [List.flatMap_cons, List.length_append, List.length_cons, List.length_cons]
      omega

theorem readsBack_list {c : Codec α} {n : Nat} {items : List α}
    (h : ∀ a ∈ items, c.ReadsBack n a ∧ Opens (c.write a)) :
    (Codec.list c).ReadsBack (n + 1) items := by
  intro depth rest hd hrest
  obtain ⟨depth, rfl⟩ : ∃ d, depth = d + 1 := ⟨depth - 1, by omega⟩
  simp only [Codec.list, List.cons_append, List.append_assoc, List.nil_append]
  rw [skipSpaces_cons rfl]
  change elementsFrom (c.read depth) _ true [] _ = _
  cases items with
  | nil =>
      simp only [List.map_nil, separated, List.nil_append]
      rw [elementsFrom, nextElement_end]
      rfl
  | cons a items =>
      obtain ⟨hread, hopens⟩ := h a List.mem_cons_self
      have hfirst := hread (show n ≤ depth by omega) (delimited_elements (items.map c.write) rest)
      have hlength := length_le_flatMap (items.map c.write)
      have hnext := elementsFrom_append (show n ≤ depth by omega)
        (fun b hb => h b (List.mem_cons_of_mem _ hb))
        (separated ((a :: items).map c.write) ++ ']' :: rest) (by
          rw [List.map_cons, separated_cons]
          rw [List.length_map] at hlength
          simp only [List.length_append, List.length_cons]
          omega) [a] rest
      rw [List.map_cons, separated_cons, List.append_assoc] at hnext ⊢
      rw [elementsFrom, nextElement_first hopens]
      simp only [bind, Except.bind, if_true, hfirst]
      exact hnext

end Codec

end SignalEngine.Json
