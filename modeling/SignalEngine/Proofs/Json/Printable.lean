import SignalEngine.Proofs.Json.Record

namespace SignalEngine.Json

open Number (Parts wireText)

/-- No control character stands in the text. -/
def Printable (cs : List Char) : Prop :=
  ∀ c ∈ cs, 0x20 ≤ c.toNat

theorem printable_of_all {cs : List Char} (h : cs.all (fun c => 0x20 ≤ c.toNat) = true) :
    Printable cs :=
  fun c hc => of_decide_eq_true (List.all_eq_true.1 h c hc)

theorem printable_nil : Printable [] :=
  List.forall_mem_nil _

theorem printable_cons {c : Char} {cs : List Char} :
    Printable (c :: cs) ↔ 0x20 ≤ c.toNat ∧ Printable cs :=
  List.forall_mem_cons

theorem printable_append {xs ys : List Char} :
    Printable (xs ++ ys) ↔ Printable xs ∧ Printable ys :=
  List.forall_mem_append

theorem Printable.enclosed {cs : List Char} (h : Printable cs) {first last : Char}
    (hfirst : 0x20 ≤ first.toNat) (hlast : 0x20 ≤ last.toNat) :
    Printable (first :: (cs ++ [last])) :=
  printable_cons.2 ⟨hfirst, printable_append.2 ⟨h, printable_cons.2 ⟨hlast, printable_nil⟩⟩⟩

theorem Printable.flatMap {f : α → List Char} {items : List α}
    (h : ∀ a ∈ items, Printable (f a)) : Printable (items.flatMap f) := by
  intro c hc
  obtain ⟨a, ha, hc⟩ := List.mem_flatMap.1 hc
  exact h a ha c hc

theorem printable_of_isDigit {digits : List Char} (h : ∀ c ∈ digits, c.isDigit = true) :
    Printable digits := by
  intro c hc
  have hdigit := h c hc
  simp only [Char.isDigit, Bool.and_eq_true, decide_eq_true_eq] at hdigit
  have hle : '0'.val.toNat ≤ c.val.toNat := hdigit.1
  exact le_trans (by decide) hle

theorem printable_toDigits (n : Nat) : Printable (Nat.toDigits 10 n) :=
  printable_of_isDigit fun _ hc => Nat.isDigit_of_mem_toDigits (by decide) (by decide) hc

theorem Printable.signed {cs : List Char} (h : Printable cs) (negative : Bool) :
    Printable (Number.signed negative cs) := by
  cases negative with
  | true => exact printable_cons.2 ⟨by decide, h⟩
  | false => exact h

theorem printable_intText (n : Int) : Printable (Number.intText n) :=
  (printable_toDigits n.natAbs).signed _

theorem printable_text {p : Parts} (hp : p.WellFormed) : Printable p.text := by
  have hfraction : Printable (Parts.fractionText p.fraction) := by
    cases hfraction : p.fraction with
    | none => exact printable_nil
    | some digits =>
        have hdigits := hp.fraction_isDigit digits hfraction
        exact printable_cons.2 ⟨by decide, printable_of_isDigit hdigits⟩
  have hexponent : Printable (Parts.exponentText p.exponent) := by
    cases p.exponent with
    | none => exact printable_nil
    | some e =>
        refine printable_cons.2 ⟨by decide, printable_cons.2 ⟨?_, printable_toDigits _⟩⟩
        split
        · decide
        · decide
  exact printable_append.2 ⟨printable_of_isDigit hp.whole_isDigit,
    printable_append.2 ⟨hfraction, hexponent⟩⟩

theorem printable_wireText {x : Float} (hx : x.isFinite) : Printable (wireText x) := by
  obtain ⟨p, hp, -, htext, -⟩ := Number.exists_parts_wireText hx
  rw [htext]
  exact (printable_text hp).signed _

theorem printable_control {n : Nat} (h : n < 32) :
    0x20 ≤ (Nat.digitChar (n / 16)).toNat ∧ 0x20 ≤ (Nat.digitChar (n % 16)).toNat := by
  revert n
  decide

theorem printable_escapedChar (c : Char) : Printable (escapedChar c) := by
  unfold escapedChar
  split
  · rename_i h
    rcases h with rfl | rfl
    · exact printable_of_all rfl
    · exact printable_of_all rfl
  split
  · exact printable_of_all rfl
  split
  · exact printable_of_all rfl
  split
  · exact printable_of_all rfl
  split
  · exact printable_of_all rfl
  split
  · exact printable_of_all rfl
  split
  · rename_i hcontrol
    obtain ⟨hhigh, hlow⟩ := printable_control hcontrol
    simp only [printable_cons]
    exact ⟨by decide, by decide, by decide, by decide, hhigh, hlow, printable_nil⟩
  · rename_i hcontrol
    exact printable_cons.2 ⟨Nat.le_of_not_lt hcontrol, printable_nil⟩

theorem printable_stringText (s : String) : Printable (stringText s) := by
  have hbody : Printable (s.toList.flatMap escapedChar) :=
    .flatMap fun c _ => printable_escapedChar c
  exact hbody.enclosed (by decide) (by decide)

/-- Whatever the codec writes holds no control character. -/
def Codec.Prints (c : Codec α) : Prop :=
  ∀ a, Printable (c.write a)

namespace Codec

theorem prints_text : Codec.text.Prints := printable_stringText

theorem prints_real : Codec.real.Prints := by
  intro x
  by_cases hx : x.isFinite = true
  · simp only [Codec.real, if_pos hx]
    exact printable_wireText hx
  · simp only [Codec.real, if_neg hx]
    exact printable_of_all rfl

theorem prints_lossless : Codec.lossless.Prints := by
  intro x
  by_cases hx : x.isFinite = true
  · simp only [Codec.lossless, if_pos hx]
    exact printable_wireText hx
  · simp only [Codec.lossless, if_neg hx]
    exact printable_stringText _

theorem prints_integer (low high : Int) (name : String) : (Codec.integer low high name).Prints :=
  printable_intText

theorem Prints.map {c : Codec α} (h : c.Prints) (wrap : α → β) (unwrap : β → α) :
    (c.map wrap unwrap).Prints :=
  fun b => h (unwrap b)

theorem prints_natural (bound : Nat) (name : String) : (Codec.natural bound name).Prints :=
  (prints_integer _ _ _).map _ _

theorem prints_enumeration (values : List β) (name : β → String) :
    (Codec.enumeration values name).Prints :=
  fun b => printable_stringText (name b)

theorem Prints.option {c : Codec α} (h : c.Prints) : c.option.Prints := by
  intro o
  cases o with
  | none => exact printable_of_all rfl
  | some a => exact h a

theorem printable_separated {items : List (List Char)} (h : ∀ item ∈ items, Printable item) :
    Printable (separated items) := by
  cases items with
  | nil => exact printable_nil
  | cons item items =>
      obtain ⟨hitem, hitems⟩ := List.forall_mem_cons.1 h
      rw [separated_cons]
      refine printable_append.2 ⟨hitem, .flatMap fun next hnext => ?_⟩
      exact printable_cons.2 ⟨by decide, hitems next hnext⟩

theorem Prints.list {c : Codec α} (h : c.Prints) : (Codec.list c).Prints := by
  intro items
  have hitems : ∀ item ∈ items.map c.write, Printable item :=
    List.forall_mem_map.2 fun a _ => h a
  exact (printable_separated hitems).enclosed (by decide) (by decide)

end Codec

theorem printable_objectText {members : List (List Char)} (h : ∀ m ∈ members, Printable m) :
    Printable (objectText members) :=
  (Codec.printable_separated h).enclosed (by decide) (by decide)

theorem printable_memberText (name : String) {content : List Char} (h : Printable content) :
    Printable (memberText name content) :=
  printable_append.2 ⟨printable_stringText name, printable_cons.2 ⟨by decide, h⟩⟩

theorem printable_taggedText (name : String) {content : List Char} (h : Printable content) :
    Printable (taggedText name content) :=
  printable_objectText (List.forall_mem_singleton.2 (printable_memberText name h))

inductive Fields.Prints : {α δ : Type} → Fields α δ → Prop
  | nil : Prints .nil
  | cons {β γ δ : Type} {f : Field β} {rest : Fields γ δ} :
      f.codec.Prints → Prints rest → Prints (.cons f rest)

namespace Fields

theorem Prints.required {codec : Codec β} {rest : Fields γ ζ} (name : String) (h : codec.Prints)
    (hrest : rest.Prints) : (Fields.required name codec rest).Prints :=
  .cons h hrest

theorem Prints.defaulted {codec : Codec β} {rest : Fields γ ζ} (name : String) (value : β)
    (h : codec.Prints) (hrest : rest.Prints) : (Fields.defaulted name codec value rest).Prints :=
  .cons h hrest

theorem Prints.optional {codec : Codec β} {rest : Fields γ ζ} (name : String) (h : codec.Prints)
    (hrest : rest.Prints) : (Fields.optional name codec rest).Prints :=
  .cons h.option hrest

theorem Prints.memberTexts {fields : Fields α δ} (h : fields.Prints) (a : α) :
    ∀ m ∈ fields.memberTexts a, Printable m := by
  induction h with
  | nil => nofun
  | cons hf _ ih =>
      rw [memberTexts_cons]
      exact List.forall_mem_cons.2 ⟨printable_memberText _ (hf a.1), ih a.2⟩

end Fields

theorem Codec.Prints.record {fields : Fields α δ} {make : α → β} {parts : β → α} (what : String)
    (h : fields.Prints) : (Codec.record what fields make parts).Prints :=
  fun b => printable_objectText (h.memberTexts (parts b))

end SignalEngine.Json
