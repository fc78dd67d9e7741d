import SignalEngine.Proofs.Json.Merged
import SignalEngine.Proofs.Json.Progress

/-!
Passing over against reading. Whatever is read as a value of any kind is passed over up to the same
place. Reading goes down into lists and objects and comes back from them, and passing over keeps the
brackets that are open on a list, so the two are compared where a value has ended: there the passing
goes on with the brackets around the value.
-/

namespace SignalEngine.Json

namespace StringState

/-- The state of a lenient scanner, which has no surrogates to wait for. -/
def lenient : StringState → StringState
  | .plain | .surrogateSlash _ => .plain
  | .escape | .surrogateMark _ => .escape
  | .hex _ seen => .hex none seen

theorem lenient_of_endOfHex {surrogate : Option Nat} {code : Nat} {state : StringState}
    {d : Option Char} (h : endOfHex true surrogate code = .ok (state, d)) :
    state.lenient = .plain := by
  unfold endOfHex at h
  simp only [Bool.not_true, Bool.false_eq_true, if_false] at h
  cases surrogate with
  | none =>
      dsimp only at h
      split at h
      · cases h
      split at h <;> cases h <;> rfl
  | some leading =>
      dsimp only at h
      split at h <;> cases h
      rfl

/-- What a strict scanner takes, a lenient one takes as well, and both end a string together. -/
theorem step_lenient {state : StringState} {c : Char} {next : Option StringState} {d : Option Char}
    (h : state.step true c = .ok (next, d)) :
    ∃ d', state.lenient.step false c = .ok (next.map lenient, d') := by
  cases state with
  | plain =>
      simp only [step] at h
      simp only [lenient, step]
      split at h
      · cases h
        exact ⟨none, if_pos ‹_›⟩
      split at h
      · cases h
        exact ⟨none, by rw [if_neg ‹_›, if_pos ‹_›]; rfl⟩
      split at h
      · cases h
      · cases h
        exact ⟨some c, by rw [if_neg ‹_›, if_neg ‹_›, if_neg ‹_›]; rfl⟩
  | escape =>
      simp only [step] at h
      simp only [lenient, step]
      split at h
      · cases h
        exact ⟨none, if_pos ‹_›⟩
      split at h
      · cases h
        rw [if_neg ‹_›]
        exact ⟨_, rfl⟩
      · cases h
  | hex surrogate seen =>
      simp only [step] at h
      simp only [lenient, step]
      split at h
      · cases h
        exact ⟨none, if_pos ‹_›⟩
      split at h
      · cases h
      · -- a leading surrogate leaves only the strict scanner waiting
        obtain ⟨p, hend, hp⟩ := map_eq_ok.1 h
        cases hp
        rw [if_neg ‹_›]
        simp only [Option.map_some, lenient_of_endOfHex hend]
        exact ⟨none, rfl⟩
  | surrogateSlash leading =>
      simp only [step] at h
      split at h
      · rename_i hslash
        cases h
        cases hslash
        exact ⟨none, rfl⟩
      · cases h
  | surrogateMark leading =>
      simp only [step] at h
      split at h
      · rename_i hmark
        cases h
        cases hmark
        exact ⟨none, rfl⟩
      · cases h

end StringState

theorem stringFrom_lenient {state : StringState} {read chars cs rest : List Char}
    (h : stringFrom true state read cs = .ok (chars, rest)) (read' : List Char) :
    ∃ chars', stringFrom false state.lenient read' cs = .ok (chars', rest) := by
  induction cs generalizing state read read' with
  | nil => cases h
  | cons c cs ih =>
      rw [stringFrom] at h
      split at h
      · cases h
      · rename_i d hstep
        obtain ⟨d', hstep'⟩ := StringState.step_lenient hstep
        cases h
        exact ⟨read'.reverse, by rw [stringFrom, hstep']; rfl⟩
      all_goals
        rename_i hstep
        obtain ⟨d', hstep'⟩ := StringState.step_lenient hstep
        rw [stringFrom, hstep']
        cases d' with
        | none => exact ih h read'
        | some d' => exact ih h (d' :: read')

theorem skipString_of_stringBody {s : String} {cs rest : List Char}
    (h : stringBody cs = .ok (s, rest)) : skipString cs = .ok rest := by
  obtain ⟨p, hread, hp⟩ := map_eq_ok.1 h
  cases hp
  obtain ⟨chars, hskip⟩ := stringFrom_lenient hread []
  rw [skipString]
  exact map_eq_ok.2 ⟨(chars, p.2), hskip, rfl⟩

theorem skipNumber_of_number {negative : Bool} {l : Lead} {cs rest : List Char}
    (h : number negative cs = .ok (l, rest)) : skipNumber cs = .ok rest := by
  obtain ⟨whole, hwhole, h⟩ := bind_eq_ok.1 h
  obtain ⟨fraction, hfraction, h⟩ := bind_eq_ok.1 h
  obtain ⟨exponent, hexponent, h⟩ := bind_eq_ok.1 h
  have hrest : exponent.2 = rest := by
    dsimp only at h
    split at h <;>
      · obtain ⟨l', -, h⟩ := bind_eq_ok.1 h
        cases h
        rfl
  simp only [skipNumber, bind, Except.bind, hwhole, hfraction, hexponent, ← hrest]
  rfl

def Lead.bracket? : Lead → Option Bracket
  | .list => some .list
  | .object => some .object
  | _ => none

theorem bracket?_eq_none {l : Lead} : l.bracket? = none ↔ l ≠ .list ∧ l ≠ .object := by
  cases l <;> simp [Lead.bracket?]

theorem bracket?_number {negative : Bool} {l : Lead} {cs rest : List Char}
    (h : number negative cs = .ok (l, rest)) : l.bracket? = none := by
  obtain ⟨whole, -, h⟩ := bind_eq_ok.1 h
  obtain ⟨fraction, -, h⟩ := bind_eq_ok.1 h
  obtain ⟨exponent, -, h⟩ := bind_eq_ok.1 h
  dsimp only at h
  apply bracket?_eq_none.2
  split at h
  · obtain ⟨l', hlead, h⟩ := bind_eq_ok.1 h
    cases h
    exact @numberLead_ne negative ⟨whole.1, none, none⟩ l hlead
  · obtain ⟨l', hlead, h⟩ := bind_eq_ok.1 h
    cases h
    exact realNumber_ne hlead

theorem skipHead_of_lead {l : Lead} {cs rest : List Char} (h : lead cs = .ok (l, rest)) :
    skipHead cs = .ok (l.bracket?, rest) := by
  rw [lead] at h
  split at h
  · cases h
  · rename_i hcs
    obtain ⟨mid, hword, hl⟩ := map_eq_ok.1 h
    cases hl
    rw [skipHead, hcs]
    exact map_eq_ok.2 ⟨_, hword, rfl⟩
  · rename_i hcs
    obtain ⟨mid, hword, hl⟩ := map_eq_ok.1 h
    cases hl
    rw [skipHead, hcs]
    exact map_eq_ok.2 ⟨_, hword, rfl⟩
  · rename_i hcs
    obtain ⟨mid, hword, hl⟩ := map_eq_ok.1 h
    cases hl
    rw [skipHead, hcs]
    exact map_eq_ok.2 ⟨_, hword, rfl⟩
  · rename_i hcs
    rw [skipHead, hcs, bracket?_number h]
    exact map_eq_ok.2 ⟨_, skipNumber_of_number h, rfl⟩
  · rename_i hcs
    obtain ⟨p, hbody, hl⟩ := map_eq_ok.1 h
    cases hl
    rw [skipHead, hcs]
    exact map_eq_ok.2 ⟨_, skipString_of_stringBody hbody, rfl⟩
  · rename_i hcs
    cases h
    rw [skipHead, hcs]
    rfl
  · rename_i hcs
    cases h
    rw [skipHead, hcs]
    rfl
  · rename_i c mid _ _ _ _ _ _ _ hcs
    split at h
    · rename_i hdigit
      rw [skipHead, hcs, bracket?_number h]
      simp only [hdigit, if_true]
      exact map_eq_ok.2 ⟨_, skipNumber_of_number h, rfl⟩
    · cases h

theorem skipSpaces_skipSpaces (cs : List Char) : skipSpaces (skipSpaces cs) = skipSpaces cs :=
  List.dropWhile_idempotent _ _

/-- Goes into a bracket that has just been opened, or on inside it. -/
def within (first : Bool) (b : Bracket) (outer : List Bracket) (cs : List Char) :
    Except Error (List Bracket × List Char) :=
  if first then openBracket b outer cs else settle (b :: outer) cs

theorem within_of_close {first : Bool} {b : Bracket} {outer : List Bracket} {cs rest : List Char}
    (h : skipSpaces cs = b.close :: rest) (hcomma : b.close ≠ ',') :
    within first b outer cs = settle outer rest := by
  cases first with
  | true => simp only [within, if_true, openBracket, h]
  | false => simp only [within, Bool.false_eq_true, if_false, settle, h, hcomma, if_true]

theorem within_of_open {b : Bracket} {outer : List Bracket} {c : Char} {cs rest : List Char}
    (h : skipSpaces cs = c :: rest) (hc : c ≠ b.close) :
    within true b outer cs = .ok (b :: outer, c :: rest) := by
  simp only [within, if_true, openBracket, h, hc, if_false]

theorem within_of_comma {b : Bracket} {outer : List Bracket} {cs rest : List Char}
    (h : skipSpaces cs = ',' :: rest) : within false b outer cs = .ok (b :: outer, rest) := by
  simp only [within, Bool.false_eq_true, if_false, settle, h, if_true]

theorem within_of_nextElement_false {first : Bool} {outer : List Bracket} {cs rest : List Char}
    (h : nextElement first cs = .ok (false, rest)) :
    within first .list outer cs = settle outer rest := by
  unfold nextElement at h
  split at h
  · cases h
  · rename_i hcs
    cases h
    exact within_of_close hcs (by decide)
  · split at h
    · cases h
    split at h
    · split at h <;> cases h
    · cases h

theorem within_of_nextElement_true {first : Bool} {outer : List Bracket} {cs rest : List Char}
    (h : nextElement first cs = .ok (true, rest)) :
    ∃ mid, within first .list outer cs = .ok (.list :: outer, mid) ∧ skipSpaces mid = rest := by
  unfold nextElement at h
  split at h
  · cases h
  · cases h
  · rename_i c after hclose hcs
    split at h
    · rename_i hfirst
      cases h
      subst hfirst
      refine ⟨c :: after, within_of_open hcs hclose, ?_⟩
      rw [← hcs, skipSpaces_skipSpaces]
    · rename_i hfirst
      cases Bool.eq_false_of_not_eq_true hfirst
      split at h
      · rename_i hcomma
        cases hcomma
        refine ⟨after, within_of_comma hcs, ?_⟩
        split at h
        · cases h
        · cases h
        · cases h
          rfl
      · cases h

theorem within_of_nextKey_none {first : Bool} {outer : List Bracket} {cs rest : List Char}
    (h : nextKey first cs = .ok (none, rest)) :
    within first .object outer cs = settle outer rest := by
  have hbody {mid : List Char} :
      (stringBody mid).map (fun p => (some p.1, p.2)) ≠ .ok (none, rest) := by
    intro hmap
    obtain ⟨p, -, hp⟩ := map_eq_ok.1 hmap
    cases hp
  unfold nextKey at h
  split at h
  · cases h
  · rename_i hcs
    cases h
    exact within_of_close hcs (by decide)
  · split at h
    · exact absurd h hbody
    · cases h
  · split at h
    · cases h
    split at h
    · cases h
    · exact absurd h hbody
    · cases h
    · cases h
  · split at h <;> cases h

theorem skipKey_of_stringBody {key : String} {cs mid rest : List Char}
    (hcs : skipSpaces cs = '"' :: mid) (h : stringBody mid = .ok (key, rest)) :
    skipKey .object cs = colon rest := by
  simp only [skipKey, hcs, skipString_of_stringBody h]
  rfl

theorem within_of_nextKey_some {first : Bool} {outer : List Bracket} {key : String}
    {cs rest : List Char} (h : nextKey first cs = .ok (some key, rest)) :
    ∃ mid, within first .object outer cs = .ok (.object :: outer, mid) ∧
      skipKey .object mid = colon rest := by
  have hbody {mid : List Char}
      (hmap : (stringBody mid).map (fun p => (some p.1, p.2)) = .ok (some key, rest)) :
      stringBody mid = .ok (key, rest) := by
    obtain ⟨p, hp, hpair⟩ := map_eq_ok.1 hmap
    cases hpair
    exact hp
  unfold nextKey at h
  split at h
  · cases h
  · cases h
  · rename_i after hcs
    split at h
    · rename_i hfirst
      subst hfirst
      refine ⟨'"' :: after, within_of_open hcs (by decide), ?_⟩
      exact skipKey_of_stringBody (by rw [← hcs, skipSpaces_skipSpaces]) (hbody h)
    · cases h
  · rename_i after hcs
    split at h
    · cases h
    · rename_i hfirst
      cases Bool.eq_false_of_not_eq_true hfirst
      split at h
      · cases h
      · rename_i hafter
        exact ⟨after, within_of_comma hcs, skipKey_of_stringBody hafter (hbody h)⟩
      · cases h
      · cases h
  · split at h <;> cases h

/-- Inside the open brackets, the text is passed over up to a rest. -/
def Passes (stack : List Bracket) (cs rest : List Char) : Prop :=
  ∃ bound, skipWithin bound stack cs = .ok rest

/-- From between two values on, the text is passed over up to a rest. -/
def Resumes (settled : Except Error (List Bracket × List Char)) (rest : List Char) : Prop :=
  ∃ bound, onward bound settled = .ok rest

theorem Passes.of_head {stack : List Bracket} {opened : Option Bracket} {cs mid rest : List Char}
    (h : skipHead cs = .ok (opened, mid)) (hrest : Resumes (afterHead stack opened mid) rest) :
    Passes stack cs rest := by
  obtain ⟨bound, hrun⟩ := hrest
  refine ⟨' ' :: bound, ?_⟩
  rw [skipWithin_cons]
  exact bind_eq_ok.2 ⟨(opened, mid), h, hrun⟩

theorem Passes.of_skipSpaces {stack : List Bracket} {cs rest : List Char}
    (h : Passes stack (skipSpaces cs) rest) : Passes stack cs rest := by
  obtain ⟨bound, hrun⟩ := h
  refine ⟨bound, ?_⟩
  cases bound with
  | nil => cases hrun
  | cons c bound =>
      rw [skipWithin_cons] at hrun ⊢
      rwa [skipHead, skipSpaces_skipSpaces, ← skipHead] at hrun

theorem Resumes.of_passes {b : Bracket} {outer : List Bracket} {cs mid rest : List Char}
    (hkey : skipKey b mid = .ok cs) (h : Passes (b :: outer) cs rest) :
    Resumes (.ok (b :: outer, mid)) rest := by
  obtain ⟨bound, hrun⟩ := h
  exact ⟨bound, onward_eq_ok.2 (.inr ⟨b, outer, mid, cs, rfl, hkey, hrun⟩)⟩

theorem resumes_done (rest : List Char) : Resumes (.ok ([], rest)) rest :=
  ⟨[], rfl⟩

theorem skipValue_of_passes {cs rest : List Char} (h : Passes [] cs rest) :
    skipValue cs = .ok rest := by
  obtain ⟨bound, hrun⟩ := h
  exact skipWithin_of_length_lt hrun (Nat.lt_succ_self _)

/-- What is read can also be passed over, whatever brackets stand around it. -/
def Passable (item : Reader α) : Prop :=
  ∀ ⦃cs a mid⦄, item cs = .ok (a, mid) →
    ∀ ⦃stack rest⦄, Resumes (settle stack mid) rest → Passes stack cs rest

theorem resumes_elementsFrom {item : Reader α} (hitem : Passable item) {bound : List Char}
    {first : Bool} {read items : List α} {outer : List Bracket} {cs mid rest : List Char}
    (h : elementsFrom item bound first read cs = .ok (items, mid))
    (hrest : Resumes (settle outer mid) rest) : Resumes (within first .list outer cs) rest := by
  induction bound generalizing first read cs with
  | nil => cases h
  | cons c bound ih =>
      rw [elementsFrom] at h
      obtain ⟨⟨more, next⟩, hnext, h⟩ := bind_eq_ok.1 h
      cases more with
      | false =>
          cases h
          rwa [within_of_nextElement_false hnext]
      | true =>
          obtain ⟨⟨a, after⟩, hread, h⟩ := bind_eq_ok.1 h
          obtain ⟨mid', hwithin, hmid'⟩ := @within_of_nextElement_true first outer _ _ hnext
          rw [hwithin]
          refine .of_passes rfl (.of_skipSpaces ?_)
          rw [hmid']
          exact hitem hread (ih h)

theorem resumes_membersFrom {member : String → σ → Except Error (Reader σ)}
    (hmember : ∀ {key known read}, member key known = .ok read → Passable read)
    {bound : List Char} {first : Bool} {known known' : σ} {outer : List Bracket}
    {cs mid rest : List Char}
    (h : membersFrom member bound first known cs = .ok (known', mid))
    (hrest : Resumes (settle outer mid) rest) : Resumes (within first .object outer cs) rest := by
  induction bound generalizing first known cs with
  | nil => cases h
  | cons c bound ih =>
      rw [membersFrom] at h
      obtain ⟨⟨key, next⟩, hnext, h⟩ := bind_eq_ok.1 h
      cases key with
      | none =>
          cases h
          rwa [within_of_nextKey_none hnext]
      | some key =>
          obtain ⟨read, hread, h⟩ := bind_eq_ok.1 h
          obtain ⟨value, hcolon, h⟩ := bind_eq_ok.1 h
          obtain ⟨⟨known, after⟩, hvalue, h⟩ := bind_eq_ok.1 h
          obtain ⟨mid', hwithin, hkey⟩ := @within_of_nextKey_some first outer _ _ _ hnext
          rw [hwithin]
          exact .of_passes (hkey.trans hcolon) (hmember hread hvalue (ih h))

/-- Whatever is read as a value of any kind can be passed over. -/
theorem passable_read (depth : Nat) : Passable (Value.read depth) := by
  induction depth with
  | zero =>
      intro cs v mid h stack rest hrest
      rw [Value.read.eq_def] at h
      obtain ⟨⟨l, next⟩, hlead, h⟩ := bind_eq_ok.1 h
      refine .of_head (skipHead_of_lead hlead) ?_
      cases l <;> cases h <;> exact hrest
  | succ depth ih =>
      intro cs v mid h stack rest hrest
      rw [Value.read.eq_def] at h
      obtain ⟨⟨l, next⟩, hlead, h⟩ := bind_eq_ok.1 h
      refine .of_head (skipHead_of_lead hlead) ?_
      cases l with
      | list =>
          obtain ⟨p, helements, h⟩ := bind_eq_ok.1 h
          cases h
          exact resumes_elementsFrom ih helements hrest
      | object =>
          obtain ⟨p, hmembers, h⟩ := bind_eq_ok.1 h
          cases h
          refine resumes_membersFrom (fun hmember => ?_) hmembers hrest
          cases hmember
          intro cs known mid hread stack rest hrest
          obtain ⟨value, hvalue, hread⟩ := bind_eq_ok.1 hread
          cases hread
          exact ih hvalue hrest
      | _ =>
          cases h
          exact hrest

theorem skipValue_of_read {depth : Nat} {v : Value} {cs rest : List Char}
    (h : Value.read depth cs = .ok (v, rest)) : skipValue cs = .ok rest :=
  skipValue_of_passes (passable_read depth h (resumes_done rest))

end SignalEngine.Json
