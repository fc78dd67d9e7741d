import SignalEngine.Json.Skip
import SignalEngine.Proofs.Json.Scan
import SignalEngine.Proofs.Json.Soundness

namespace SignalEngine.Json

theorem length_skipSpaces_le (cs : List Char) : (skipSpaces cs).length ≤ cs.length :=
  List.length_dropWhile_le _ _

theorem length_of_skipSpaces {c : Char} {cs rest : List Char} (h : skipSpaces cs = c :: rest) :
    rest.length < cs.length := by
  have hle := length_skipSpaces_le cs
  rw [h, List.length_cons] at hle
  exact hle

theorem length_word_le {expected cs rest : List Char} (h : word expected cs = .ok rest) :
    rest.length ≤ cs.length := by
  induction expected generalizing cs with
  | nil =>
      cases h
      exact Nat.le_refl _
  | cons e expected ih =>
      cases cs with
      | nil => cases h
      | cons c cs =>
          rw [word] at h
          split at h
          · exact Nat.le_succ_of_le (ih h)
          · cases h

theorem length_takeDigits_le (cs : List Char) : (Number.takeDigits cs).2.length ≤ cs.length := by
  rw [Number.takeDigits, List.span_eq_takeWhile_dropWhile]
  exact List.length_dropWhile_le _ _

theorem length_wholePart_lt {whole cs rest : List Char} (h : wholePart cs = .ok (whole, rest)) :
    rest.length < cs.length := by
  unfold wholePart at h
  split at h
  · cases h
  · split at h
    · cases h
      exact Nat.one_pos
    · split at h <;> cases h
      exact Nat.lt_succ_self _
  · rename_i c cs _
    split at h
    · rename_i hdigit
      have hle := length_takeDigits_le cs
      rw [Number.takeDigits, List.span_eq_takeWhile_dropWhile] at h hle
      rw [List.dropWhile_cons_of_pos hdigit] at h
      cases h
      exact Nat.lt_succ_of_le hle
    · cases h

theorem length_fractionPart_le {fraction : Option (List Char)} {cs rest : List Char}
    (h : fractionPart cs = .ok (fraction, rest)) : rest.length ≤ cs.length := by
  unfold fractionPart at h
  split at h
  · rename_i cs
    have hle := length_takeDigits_le cs
    split at h
    · cases h
    · cases h
    · rename_i hdigits
      cases h
      rw [hdigits] at hle
      exact Nat.le_succ_of_le hle
  · cases h
    exact Nat.le_refl _

theorem length_takeSign_le (cs : List Char) : (Number.takeSign cs).2.length ≤ cs.length := by
  unfold Number.takeSign
  split <;> simp

theorem length_exponentPart_le {exponent : Int} {cs rest : List Char}
    (h : exponentPart cs = .ok (exponent, rest)) : rest.length ≤ cs.length := by
  have hsign := length_takeSign_le cs
  have hdigits := length_takeDigits_le (Number.takeSign cs).2
  unfold exponentPart at h
  dsimp only at h
  split at h
  · cases h
  · cases h
  · rename_i heq
    cases h
    rw [heq] at hdigits
    exact hdigits.trans hsign

theorem length_optionalExponent_le {exponent : Option Int} {cs rest : List Char}
    (h : optionalExponent cs = .ok (exponent, rest)) : rest.length ≤ cs.length := by
  cases cs with
  | nil =>
      cases h
      exact Nat.le_refl _
  | cons c cs =>
      rw [optionalExponent] at h
      split at h
      · obtain ⟨p, hpart, hp⟩ := map_eq_ok.1 h
        cases hp
        exact Nat.le_succ_of_le (length_exponentPart_le hpart)
      · cases h
        exact Nat.le_refl _

theorem length_skipNumber_lt {cs rest : List Char} (h : skipNumber cs = .ok rest) :
    rest.length < cs.length := by
  obtain ⟨whole, hwhole, h⟩ := bind_eq_ok.1 (mapError_eq_ok.1 h)
  obtain ⟨fraction, hfraction, h⟩ := bind_eq_ok.1 h
  obtain ⟨exponent, hexponent, h⟩ := bind_eq_ok.1 h
  cases h
  have hle := (length_optionalExponent_le hexponent).trans (length_fractionPart_le hfraction)
  exact hle.trans_lt (length_wholePart_lt hwhole)

theorem length_stringFrom_lt {strict : Bool} {state : StringState} {read chars cs rest : List Char}
    (h : stringFrom strict state read cs = .ok (chars, rest)) : rest.length < cs.length := by
  induction cs generalizing state read with
  | nil => cases h
  | cons c cs ih =>
      rw [stringFrom] at h
      split at h
      · cases h
      · cases h
        exact Nat.lt_succ_self _
      · exact (ih h).trans (Nat.lt_succ_self _)
      · exact (ih h).trans (Nat.lt_succ_self _)

theorem length_skipString_lt {cs rest : List Char} (h : skipString cs = .ok rest) :
    rest.length < cs.length := by
  obtain ⟨p, hread, rfl⟩ := map_eq_ok.1 h
  exact length_stringFrom_lt hread

theorem length_skipHead_lt {opened : Option Bracket} {cs rest : List Char}
    (h : skipHead cs = .ok (opened, rest)) : rest.length < cs.length := by
  have hscalar {x : Except Error (List Char)}
      (hx : ∀ rest, x = .ok rest → rest.length < cs.length)
      (h : x.map (fun rest => ((none : Option Bracket), rest)) = .ok (opened, rest)) :
      rest.length < cs.length := by
    obtain ⟨mid, hmid, hpair⟩ := map_eq_ok.1 h
    cases hpair
    exact hx _ hmid
  unfold skipHead at h
  dsimp only at h
  split at h
  · cases h
  · rename_i hcs
    exact hscalar (fun _ hword => (length_word_le hword).trans_lt (length_of_skipSpaces hcs)) h
  · rename_i hcs
    exact hscalar (fun _ hword => (length_word_le hword).trans_lt (length_of_skipSpaces hcs)) h
  · rename_i hcs
    exact hscalar (fun _ hword => (length_word_le hword).trans_lt (length_of_skipSpaces hcs)) h
  · rename_i hcs
    exact hscalar (fun _ hskip => (length_skipNumber_lt hskip).trans (length_of_skipSpaces hcs)) h
  · rename_i hcs
    exact hscalar (fun _ hskip => (length_skipString_lt hskip).trans (length_of_skipSpaces hcs)) h
  · rename_i hcs
    cases h
    exact length_of_skipSpaces hcs
  · rename_i hcs
    cases h
    exact length_of_skipSpaces hcs
  · rename_i c mid _ _ _ _ _ _ _ hcs
    split at h
    · have hle : (c :: mid).length ≤ cs.length := length_of_skipSpaces hcs
      exact hscalar (fun _ hskip => (length_skipNumber_lt hskip).trans_le hle) h
    · cases h

theorem length_settle_le {stack stack' : List Bracket} {cs rest : List Char}
    (h : settle stack cs = .ok (stack', rest)) : rest.length ≤ cs.length := by
  induction stack generalizing cs with
  | nil =>
      cases h
      exact Nat.le_refl _
  | cons b outer ih =>
      rw [settle] at h
      split at h
      · cases h
      · rename_i hcs
        have hlt := length_of_skipSpaces hcs
        split at h
        · cases h
          exact hlt.le
        split at h
        · exact (ih h).trans hlt.le
        · cases h

theorem length_openBracket_le {b : Bracket} {outer stack : List Bracket} {cs rest : List Char}
    (h : openBracket b outer cs = .ok (stack, rest)) : rest.length ≤ cs.length := by
  unfold openBracket at h
  split at h
  · cases h
  · rename_i hcs
    have hlt := length_of_skipSpaces hcs
    split at h
    · exact (length_settle_le h).trans hlt.le
    · cases h
      exact hlt

theorem length_colon_lt {cs rest : List Char} (h : colon cs = .ok rest) :
    rest.length < cs.length := by
  unfold colon at h
  split at h
  · cases h
  · rename_i hcs
    cases h
    exact length_of_skipSpaces hcs
  · cases h

theorem length_skipKey_le {b : Bracket} {cs rest : List Char} (h : skipKey b cs = .ok rest) :
    rest.length ≤ cs.length := by
  cases b with
  | list =>
      cases h
      exact Nat.le_refl _
  | object =>
      simp only [skipKey] at h
      split at h
      · cases h
      · rename_i hcs
        obtain ⟨mid, hskip, hcolon⟩ := bind_eq_ok.1 h
        have hmid := (length_skipString_lt hskip).trans (length_of_skipSpaces hcs)
        exact ((length_colon_lt hcolon).trans hmid).le
      · cases h

/-- Goes on where a value has ended, or just after an opening bracket. -/
def onward (bound : List Char) (settled : Except Error (List Bracket × List Char)) :
    Except Error (List Char) := do
  let (stack, rest) ← settled
  match stack with
  | [] => return rest
  | b :: _ => skipWithin bound stack (← skipKey b rest)

def afterHead (stack : List Bracket) (opened : Option Bracket) (rest : List Char) :
    Except Error (List Bracket × List Char) :=
  match opened with
  | none => settle stack rest
  | some b => openBracket b stack rest

theorem skipWithin_cons (c : Char) (bound : List Char) (stack : List Bracket) (cs : List Char) :
    skipWithin (c :: bound) stack cs = (do
      let (opened, rest) ← skipHead cs
      onward bound (afterHead stack opened rest)) := by
  rw [skipWithin]
  apply bind_congr
  rintro ⟨opened, rest⟩
  cases opened <;> rfl

theorem length_afterHead_le {stack stack' : List Bracket} {opened : Option Bracket}
    {cs rest : List Char} (h : afterHead stack opened cs = .ok (stack', rest)) :
    rest.length ≤ cs.length := by
  cases opened with
  | none => exact length_settle_le h
  | some b => exact length_openBracket_le h

theorem onward_eq_ok {bound : List Char} {settled : Except Error (List Bracket × List Char)}
    {rest : List Char} :
    onward bound settled = .ok rest ↔ settled = .ok ([], rest) ∨
      ∃ b outer mid mid', settled = .ok (b :: outer, mid) ∧ skipKey b mid = .ok mid' ∧
        skipWithin bound (b :: outer) mid' = .ok rest := by
  constructor
  · intro h
    obtain ⟨⟨stack, mid⟩, rfl, hrun⟩ := bind_eq_ok.1 h
    cases stack with
    | nil =>
        cases hrun
        exact .inl rfl
    | cons b outer =>
        obtain ⟨mid', hkey, hrun⟩ := bind_eq_ok.1 hrun
        exact .inr ⟨b, outer, mid, mid', rfl, hkey, hrun⟩
  · rintro (rfl | ⟨b, outer, mid, mid', rfl, hkey, hrun⟩)
    · rfl
    · change skipKey b mid >>= _ = _
      exact bind_eq_ok.2 ⟨mid', hkey, hrun⟩

/-- A bound that is longer than the text allows for every step. -/
theorem skipWithin_of_length_lt {bound bound' : List Char} {stack : List Bracket}
    {cs rest : List Char} (h : skipWithin bound stack cs = .ok rest)
    (hbound : cs.length < bound'.length) : skipWithin bound' stack cs = .ok rest := by
  induction bound generalizing bound' stack cs with
  | nil => cases h
  | cons c bound ih =>
      cases bound' with
      | nil => exact absurd hbound (Nat.not_lt_zero _)
      | cons c' bound' =>
          rw [skipWithin_cons] at h ⊢
          obtain ⟨⟨opened, mid⟩, hhead, h⟩ := bind_eq_ok.1 h
          refine bind_eq_ok.2 ⟨(opened, mid), hhead, ?_⟩
          rcases onward_eq_ok.1 h with hdone | ⟨b, outer, next, value, hsettled, hkey, hrun⟩
          · exact onward_eq_ok.2 (.inl hdone)
          · have hmid := length_skipHead_lt hhead
            have hnext := length_afterHead_le hsettled
            have hvalue := length_skipKey_le hkey
            have hlt : value.length < bound'.length := by
              rw [List.length_cons] at hbound
              omega
            exact onward_eq_ok.2 (.inr ⟨b, outer, next, value, hsettled, hkey, ih hrun hlt⟩)

end SignalEngine.Json
