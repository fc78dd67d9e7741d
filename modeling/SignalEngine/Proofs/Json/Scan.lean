import SignalEngine.Json.Codec
import SignalEngine.Proofs.Number.Layout

namespace SignalEngine.Json

open Number (Parts takeDigits natOfDigits)

/-- What may follow a value in a written text: nothing, a comma or a closing bracket. -/
def Delimited (rest : List Char) : Prop :=
  ∀ c ∈ rest.head?, c = ',' ∨ c = ']' ∨ c = '\x7d'

theorem delimited_nil : Delimited [] := by
  intro c hc
  cases hc

theorem delimited_comma (rest : List Char) : Delimited (',' :: rest) := by
  intro c hc
  exact .inl (Option.mem_some_iff.mp hc).symm

theorem delimited_bracket (rest : List Char) : Delimited (']' :: rest) := by
  intro c hc
  exact .inr (.inl (Option.mem_some_iff.mp hc).symm)

theorem delimited_brace (rest : List Char) : Delimited ('\x7d' :: rest) := by
  intro c hc
  exact .inr (.inr (Option.mem_some_iff.mp hc).symm)

theorem skipSpaces_cons {c : Char} (h : isSpace c = false) (rest : List Char) :
    skipSpaces (c :: rest) = c :: rest := by
  rw [skipSpaces, List.dropWhile_cons_of_neg (by rw [h]; decide)]

def NoDigit (rest : List Char) : Prop :=
  ∀ c ∈ rest.head?, c.isDigit = false

theorem Delimited.noDigit {rest : List Char} (h : Delimited rest) : NoDigit rest := by
  intro c hc
  obtain rfl | rfl | rfl := h c hc <;> rfl

theorem Delimited.ne {rest : List Char} (h : Delimited rest) :
    ∀ c ∈ rest.head?, c ≠ '.' ∧ c ≠ 'e' ∧ c ≠ 'E' := by
  intro c hc
  obtain rfl | rfl | rfl := h c hc <;> decide

theorem takeDigits_append {digits rest : List Char} (hd : ∀ c ∈ digits, c.isDigit = true)
    (hr : NoDigit rest) : takeDigits (digits ++ rest) = (digits, rest) := by
  unfold takeDigits
  rw [List.span_eq_takeWhile_dropWhile, Prod.mk.injEq]
  have htake : rest.takeWhile Char.isDigit = [] := by
    cases rest with
    | nil => rfl
    | cons c rest => exact List.takeWhile_cons_of_neg (by rw [hr c rfl]; decide)
  have hdrop : rest.dropWhile Char.isDigit = rest := by
    cases rest with
    | nil => rfl
    | cons c rest => exact List.dropWhile_cons_of_neg (by rw [hr c rfl]; decide)
  constructor
  · rw [List.takeWhile_append_of_pos hd, htake, List.append_nil]
  · rw [List.dropWhile_append_of_pos hd, hdrop]

theorem wholePart_append {whole rest : List Char} (hne : whole ≠ [])
    (hd : ∀ c ∈ whole, c.isDigit = true) (hzero : '0' ∈ whole.head? → whole = ['0'])
    (hr : NoDigit rest) : wholePart (whole ++ rest) = .ok (whole, rest) := by
  match whole, hne with
  | c :: digits, _ =>
      by_cases hc : c = '0'
      · subst hc
        obtain rfl : digits = [] := List.tail_eq_of_cons_eq (hzero rfl)
        cases rest with
        | nil => rfl
        | cons d rest => simp [wholePart, hr d rfl]
      · have hdigit := hd c List.mem_cons_self
        have htake := takeDigits_append hd hr
        rw [List.cons_append] at htake ⊢
        unfold wholePart
        split
        · rename_i heq
          cases heq
        · rename_i heq
          exact absurd (List.head_eq_of_cons_eq heq) hc
        · rename_i heq
          obtain ⟨rfl, rfl⟩ := List.cons.inj heq
          rw [if_pos hdigit, htake]

theorem fractionPart_append {fraction : Option (List Char)} {rest : List Char}
    (hne : ∀ ds ∈ fraction, ds ≠ []) (hd : ∀ ds ∈ fraction, ∀ c ∈ ds, c.isDigit = true)
    (hr : NoDigit rest) (hpoint : ∀ c ∈ rest.head?, c ≠ '.') :
    fractionPart (Parts.fractionText fraction ++ rest) = .ok (fraction, rest) := by
  cases fraction with
  | none =>
      unfold Parts.fractionText fractionPart
      split
      · rename_i heq
        exact absurd rfl (hpoint '.' (by rw [List.nil_append] at heq; rw [heq]; rfl))
      · rfl
  | some ds =>
      obtain ⟨c, ds, rfl⟩ := List.exists_cons_of_ne_nil (hne ds rfl)
      rw [Parts.fractionText, List.cons_append, fractionPart, takeDigits_append (hd _ rfl) hr]

theorem exponentPart_append (e : Int) {rest : List Char} (hr : NoDigit rest) :
    exponentPart ((if e < 0 then '-' else '+') :: (Nat.toDigits 10 e.natAbs ++ rest)) =
      .ok (e, rest) := by
  have hdigits := takeDigits_append
    (fun c hc => Nat.isDigit_of_mem_toDigits (b := 10) (n := e.natAbs) (by decide) (by decide) hc)
      hr
  have hvalue := Number.natOfDigits_toDigits e.natAbs
  have hne : Nat.toDigits 10 e.natAbs ≠ [] := Nat.toDigits_ne_nil
  have hsign :
    Number.takeSign ((if e < 0 then '-' else '+') :: (Nat.toDigits 10 e.natAbs ++ rest)) =
      (decide (e < 0), Nat.toDigits 10 e.natAbs ++ rest) := by
    by_cases he : e < 0
    · rw [if_pos he, decide_eq_true he]
      rfl
    · rw [if_neg he, decide_eq_false he]
      rfl
  unfold exponentPart
  rw [hsign]
  dsimp only
  rw [hdigits]
  generalize Nat.toDigits 10 e.natAbs = digits at *
  match digits, hne with
  | d :: ds, _ =>
      dsimp only
      rw [hvalue]
      congr 2
      simp only [decide_eq_true_eq, Int.ofNat_eq_natCast]
      split <;> omega

theorem optionalExponent_append (exponent : Option Int) {rest : List Char} (hr : NoDigit rest)
    (hmark : ∀ c ∈ rest.head?, c ≠ 'e' ∧ c ≠ 'E') :
    optionalExponent (Parts.exponentText exponent ++ rest) = .ok (exponent, rest) := by
  cases exponent with
  | none =>
      cases rest with
      | nil => rfl
      | cons c rest =>
          obtain ⟨h, h'⟩ := hmark c rfl
          simp [Parts.exponentText, optionalExponent, h, h']
  | some e =>
      simp only [Parts.exponentText, List.cons_append, optionalExponent, true_or, if_true]
      rw [exponentPart_append e hr]
      rfl

theorem noDigit_exponentText (exponent : Option Int) {rest : List Char} (h : Delimited rest) :
    NoDigit (Parts.exponentText exponent ++ rest) := by
  cases exponent with
  | none => exact h.noDigit
  | some e =>
      intro c hc
      rw [← Option.mem_some_iff.mp hc]
      rfl

theorem noDigit_fractionText (fraction : Option (List Char)) (exponent : Option Int)
    {rest : List Char} (h : Delimited rest) :
    NoDigit (Parts.fractionText fraction ++ (Parts.exponentText exponent ++ rest)) := by
  cases fraction with
  | none => exact noDigit_exponentText exponent h
  | some ds =>
      intro c hc
      rw [← Option.mem_some_iff.mp hc]
      rfl

/-- What a number is read as, given its parts. -/
def numberLead (negative : Bool) (p : Parts) : Except Error Lead :=
  if p.fraction.isSome || p.exponent.isSome then realNumber negative p.numeral
  else wholeNumber negative p.whole

theorem number_append (negative : Bool) {p : Parts} (hp : p.WellFormed) {rest : List Char}
    (h : Delimited rest) :
    number negative (p.text ++ rest) = (numberLead negative p).map fun l => (l, rest) := by
  have hfraction :
    fractionPart (Parts.fractionText p.fraction ++ (Parts.exponentText p.exponent ++ rest)) =
      .ok (p.fraction, Parts.exponentText p.exponent ++ rest) := by
    apply fractionPart_append hp.fraction_ne_nil hp.fraction_isDigit (noDigit_exponentText _ h)
    cases p.exponent with
    | none => exact fun c hc => (h.ne c hc).1
    | some e =>
        intro c hc
        rw [← Option.mem_some_iff.mp hc]
        decide
  unfold number Parts.text numberLead
  rw [List.append_assoc, List.append_assoc,
    wholePart_append hp.whole_ne_nil hp.whole_isDigit hp.whole_head (noDigit_fractionText _ _ h)]
  simp only [bind, Except.bind, hfraction,
    optionalExponent_append p.exponent h.noDigit fun c hc => (h.ne c hc).2]
  have hnone : (p.fraction.isNone && p.exponent.isNone) =
    !(p.fraction.isSome || p.exponent.isSome) := by
    cases p.fraction <;> cases p.exponent <;> rfl
  rw [hnone]
  cases p.fraction.isSome || p.exponent.isSome
  · simp only [Bool.not_false, if_true, Bool.false_eq_true, if_false]
    cases wholeNumber negative p.whole <;> rfl
  · simp only [Bool.not_true, if_true, Bool.false_eq_true, if_false, Parts.numeral]
    generalize realNumber negative _ = l
    cases l <;> rfl

theorem stringFrom_plain {c : Char} (hquote : c ≠ '"') (hslash : c ≠ '\\')
    (hcontrol : ¬ c.toNat < 0x20) (read rest : List Char) :
    stringFrom true .plain read (c :: rest) = stringFrom true .plain (c :: read) rest := by
  simp [stringFrom, StringState.step, hquote, hslash, hcontrol]

theorem stringFrom_escape {c d : Char} (h : simpleEscape? c = some d) (read rest : List Char) :
    stringFrom true .plain read ('\\' :: c :: rest) = stringFrom true .plain (d :: read) rest := by
  have hu : c ≠ 'u' := by
    rintro rfl
    cases h
  simp [stringFrom, StringState.step, hu, h]

theorem control_digits {n : Nat} (h : n < 32) :
    hexCode? [Nat.digitChar (n % 16), Nat.digitChar (n / 16), '0', '0'] = some n ∧
      (Nat.digitChar (n / 16)).utf8Size = 1 ∧ (Nat.digitChar (n % 16)).utf8Size = 1 := by
  revert n
  decide

theorem stringFrom_control {c : Char} (h : c.toNat < 0x20) (read rest : List Char) :
    stringFrom true .plain read
      ('\\' :: 'u' :: '0' :: '0' :: Nat.digitChar (c.toNat / 16) :: Nat.digitChar
        (c.toNat % 16) :: rest) =
      stringFrom true .plain (c :: read) rest := by
  obtain ⟨hcode, hhigh, hlow⟩ := control_digits h
  have hone : byteLength ['0'] = 1 := rfl
  have htwo : byteLength ['0', '0'] = 2 := rfl
  have hthree : byteLength [Nat.digitChar (c.toNat / 16), '0', '0'] = 3 := by
    simp [byteLength, hhigh]
    rfl
  have hfour : byteLength [Nat.digitChar (c.toNat % 16), Nat.digitChar (c.toNat / 16), '0', '0'] =
    4 := by
    simp [byteLength, hhigh, hlow]
    rfl
  have htrailing : isTrailingSurrogate c.toNat = false := by
    simp only [isTrailingSurrogate, Bool.and_eq_false_imp, decide_eq_true_eq]
    omega
  have hleading : isLeadingSurrogate c.toNat = false := by
    simp only [isLeadingSurrogate, Bool.and_eq_false_imp, decide_eq_true_eq]
    omega
  simp [stringFrom, StringState.step, hone, htwo, hthree, hfour, hcode, endOfHex, htrailing,
    hleading, Except.map]

theorem stringFrom_escapedChar (c : Char) (read rest : List Char) :
    stringFrom true .plain read (escapedChar c ++ rest) =
      stringFrom true .plain (c :: read) rest := by
  unfold escapedChar
  split
  · rename_i h
    rcases h with rfl | rfl
    · exact stringFrom_escape rfl read rest
    · exact stringFrom_escape rfl read rest
  rename_i hplain
  split
  · subst c
    exact stringFrom_escape rfl read rest
  split
  · subst c
    exact stringFrom_escape rfl read rest
  split
  · subst c
    exact stringFrom_escape rfl read rest
  split
  · subst c
    exact stringFrom_escape rfl read rest
  split
  · subst c
    exact stringFrom_escape rfl read rest
  split
  · rename_i hcontrol
    exact stringFrom_control hcontrol read rest
  · rename_i hcontrol
    rw [not_or] at hplain
    exact stringFrom_plain hplain.1 hplain.2 hcontrol read rest

theorem stringFrom_flatMap (cs read rest : List Char) :
    stringFrom true .plain read (cs.flatMap escapedChar ++ '"' :: rest) =
      .ok (read.reverse ++ cs, rest) := by
  induction cs generalizing read with
  | nil =>
      rw [List.append_nil]
      rfl
  | cons c cs ih =>
      rw [List.flatMap_cons, List.append_assoc, stringFrom_escapedChar, ih, List.reverse_cons,
        List.append_assoc]
      rfl

/-- A written string is read back, whatever follows. -/
theorem stringBody_append (s : String) (rest : List Char) :
    stringBody (s.toList.flatMap escapedChar ++ '"' :: rest) = .ok (s, rest) := by
  rw [stringBody, stringFrom_flatMap]
  simp [Except.map]

theorem stringText_append (s : String) (rest : List Char) :
    stringText s ++ rest = '"' :: (s.toList.flatMap escapedChar ++ '"' :: rest) := by
  simp [stringText]

theorem lead_stringText (s : String) (rest : List Char) :
    lead (stringText s ++ rest) = .ok (.text s, rest) := by
  rw [stringText_append, lead, skipSpaces_cons rfl]
  exact congrArg (Except.map fun p => (Lead.text p.1, p.2)) (stringBody_append s rest)

theorem lead_digit {c : Char} (h : c.isDigit = true) (rest : List Char) :
    lead (c :: rest) = number false (c :: rest) := by
  have hne : ∀ d : Char, d.isDigit = false → c ≠ d := by
    rintro d hd rfl
    rw [h] at hd
    cases hd
  have hspace : isSpace c = false := by
    simp [isSpace, hne ' ' rfl, hne '\t' rfl, hne '\n' rfl, hne '\r' rfl]
  rw [lead, skipSpaces_cons hspace]
  split <;> rename_i heq
  · cases heq
  · exact absurd (List.head_eq_of_cons_eq heq) (hne _ rfl)
  · exact absurd (List.head_eq_of_cons_eq heq) (hne _ rfl)
  · exact absurd (List.head_eq_of_cons_eq heq) (hne _ rfl)
  · exact absurd (List.head_eq_of_cons_eq heq) (hne _ rfl)
  · exact absurd (List.head_eq_of_cons_eq heq) (hne _ rfl)
  · exact absurd (List.head_eq_of_cons_eq heq) (hne _ rfl)
  · exact absurd (List.head_eq_of_cons_eq heq) (hne _ rfl)
  · obtain ⟨rfl, rfl⟩ := List.cons.inj heq
    rw [if_pos h]

theorem lead_minus (rest : List Char) : lead ('-' :: rest) = number true rest := by
  rw [lead, skipSpaces_cons rfl]
  rfl

theorem lead_signed (negative : Bool) {p : Parts} (hp : p.WellFormed) {rest : List Char}
    (h : Delimited rest) :
    lead (Number.signed negative p.text ++ rest) =
      (numberLead negative p).map fun l => (l, rest) := by
  cases negative with
  | false =>
      rw [← number_append false hp h, Number.signed, if_neg Bool.false_ne_true, Parts.text]
      obtain ⟨c, digits, hwhole⟩ := List.exists_cons_of_ne_nil hp.whole_ne_nil
      have hdigit := hp.whole_isDigit c (by rw [hwhole]; exact List.mem_cons_self)
      rw [hwhole]
      exact lead_digit hdigit _
  | true =>
      rw [← number_append true hp h]
      exact lead_minus _

/-- The wire form of a finite number is read back. -/
theorem lead_wireText {x : Float} (hx : x.isFinite) {rest : List Char} (h : Delimited rest) :
    lead (Number.wireText x ++ rest) = .ok (.real x, rest) := by
  obtain ⟨p, hp, hsome, htext, hfinite, hvalue⟩ := Number.exists_parts_wireText hx
  rw [htext, lead_signed _ hp h, numberLead, hsome, if_pos rfl, realNumber]
  rw [hfinite, hvalue]
  rfl

end SignalEngine.Json
