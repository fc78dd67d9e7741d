import SignalEngine.Json.Merged
import SignalEngine.Proofs.Json.Record

namespace SignalEngine.Json

theorem Value.read_of_lead {cs rest : List Char} {l : Lead} (depth : Nat)
    (h : lead cs = .ok (l, rest))
    (hlist : l ≠ .list) (hobject : l ≠ .object) : ∃ v, Value.read depth cs = .ok (v, rest) := by
  rw [Value.read.eq_def]
  dsimp only
  rw [h]
  cases l with
  | list => exact absurd rfl hlist
  | object => exact absurd rfl hobject
  | _ => exact ⟨_, rfl⟩

theorem Value.read_of_lead_error {cs : List Char} {e : Error} (depth : Nat)
    (h : lead cs = .error e) :
    Value.read depth cs = .error e := by
  rw [Value.read.eq_def]
  dsimp only
  rw [h]
  rfl

theorem realNumber_ne {negative : Bool} {numeral : Number.Numeral} {l : Lead}
    (h : realNumber negative numeral = .ok l) : l ≠ .list ∧ l ≠ .object := by
  unfold realNumber at h
  dsimp only at h
  split at h
  · cases h
  · cases h
    exact ⟨Lead.noConfusion, Lead.noConfusion⟩

theorem numberLead_ne {negative : Bool} {p : Number.Parts} {l : Lead}
    (h : numberLead negative p = .ok l) :
    l ≠ .list ∧ l ≠ .object := by
  unfold numberLead wholeNumber at h
  dsimp only at h
  split at h
  · exact realNumber_ne h
  split at h
  · split at h
    · exact realNumber_ne h
    · cases h
      exact ⟨Lead.noConfusion, Lead.noConfusion⟩
  · split at h
    · cases h
      exact ⟨Lead.noConfusion, Lead.noConfusion⟩
    · exact realNumber_ne h

namespace Codec

/-- What is written passes the check of a value of any kind, unless the value is refused. -/
def Skimmed (c : Codec α) (a : α) (p : Prop) : Prop :=
  ∀ depth ⦃rest⦄, Delimited rest →
    (∃ v, Value.read depth (c.write a ++ rest) = .ok (v, rest)) ∨
      (¬ p ∧ ∃ e, Value.read depth (c.write a ++ rest) = .error e)

theorem skimmed_real (x : Float) (p : Prop) : Codec.real.Skimmed x p := by
  intro depth rest hrest
  apply Or.inl
  by_cases hx : x.isFinite
  · simp only [Codec.real, if_pos hx]
    exact Value.read_of_lead depth (lead_wireText hx hrest) Lead.noConfusion Lead.noConfusion
  · simp only [Codec.real, if_neg hx]
    exact Value.read_of_lead depth lead_null Lead.noConfusion Lead.noConfusion

theorem skimmed_count {n : Nat} {p : Prop} (hp : p → n < 2 ^ 64) : Codec.count.Skimmed n p := by
  intro depth rest hrest
  have hlead := lead_intText (Int.ofNat n) hrest
  change (∃ v, Value.read depth (Number.intText (Int.ofNat n) ++ rest) = _) ∨
    (¬ p ∧ ∃ e, Value.read depth (Number.intText (Int.ofNat n) ++ rest) = _)
  cases hl : numberLead (decide (Int.ofNat n < 0)) (integerParts (Int.ofNat n)) with
  | ok l =>
      rw [hl] at hlead
      obtain ⟨hlist, hobject⟩ := numberLead_ne hl
      exact .inl (Value.read_of_lead depth hlead hlist hobject)
  | error e =>
      rw [hl] at hlead
      refine .inr ⟨fun h => ?_, e, Value.read_of_lead_error depth hlead⟩
      rw [Int.ofNat_eq_natCast, numberLead_of_fits (by omega) (by have := hp h; omega)] at hl
      cases hl

end Codec

namespace Fields

def Skimmed : Fields α δ → α → Prop → Prop
  | .nil, _, _ => True
  | .cons f rest, (b, c), p => f.codec.Skimmed b p ∧ rest.Skimmed c p

def KeptAs : Fields α δ → α → List Kept → Prop
  | .nil, _, ks => ks = []
  | .cons f rest, (b, c), ks => ∃ cs ks', Delimited cs ∧ rest.KeptAs c ks' ∧
      ks = ⟨f.name, f.codec.write b ++ cs⟩ :: ks'

theorem KeptAs.name_mem {fields : Fields α δ} {a : α} {ks : List Kept} (h : fields.KeptAs a ks) :
    ∀ k ∈ ks, k.name ∈ fields.names := by
  induction fields generalizing ks with
  | nil =>
      obtain rfl := h
      simp
  | cons f rest ih =>
      obtain ⟨b, c⟩ := a
      obtain ⟨cs, ks', -, hks', rfl⟩ := h
      intro k hk
      rcases List.mem_cons.mp hk with rfl | hk
      · exact List.mem_cons_self
      · exact List.mem_cons_of_mem _ (ih hks' k hk)

theorem member_eq_none {fields : Fields α δ} {name : String} (h : name ∉ fields.names) (depth : Nat)
    (draft : δ) : fields.member depth name draft = .ok none := by
  induction fields with
  | nil => rfl
  | cons f rest ih =>
      obtain ⟨b, draft⟩ := draft
      obtain ⟨hne, hrest⟩ := not_or.mp (List.mem_cons.not.mp h)
      simp only [member, if_neg hne, ih hrest]
      rfl

theorem takeKept_skip {fields : Fields α δ} {ks : List Kept} (h : ∀ k ∈ ks, k.name ∉ fields.names)
    (depth : Nat) (others : List Kept) (draft : δ) :
    fields.takeKept depth (ks ++ others) draft = fields.takeKept depth others draft := by
  induction ks with
  | nil => rfl
  | cons k ks ih =>
      rw [List.cons_append, takeKept, member_eq_none (h k List.mem_cons_self)]
      exact ih fun k hk => h k (List.mem_cons_of_mem _ hk)

theorem takeKept_append {whole : Fields β ε} {fields : Fields α δ} {a : α} {p : Prop}
    {n depth : Nat}
    (h : fields.ReadsBackIff n a p) (hd : n ≤ depth) (hnames : fields.names.Nodup) (put : δ → ε)
    (hinto : fields.Into depth (whole.member depth) put) {ks : List Kept} (hks : fields.KeptAs a ks)
    (others : List Kept) :
    (p → whole.takeKept depth (ks ++ others) (put fields.blank) =
        whole.takeKept depth others (put (fields.filled a))) ∧
      (¬ p → ∃ e, whole.takeKept depth (ks ++ others) (put fields.blank) = .error e) := by
  induction h generalizing ks with
  | nil =>
      obtain rfl := hks
      exact ⟨fun _ => rfl, fun hp => absurd trivial hp⟩
  | @cons β γ δ f fields b c p q hf hfields ih =>
      obtain ⟨cs, ks', hcs, hks', rfl⟩ := hks
      obtain ⟨hname, hnames⟩ := List.nodup_cons.mp hnames
      have hmember := hinto f.name List.mem_cons_self _ _ (member_blank f fields depth fields.blank)
      obtain ⟨hok, herror⟩ := ih hnames (fun draft => put (some b, draft)) (hinto.rest hname _) hks'
      rw [List.cons_append, takeKept]
      change (p ∧ q → (whole.member depth f.name (put (none, fields.blank)) >>= _) = _) ∧
        (¬ (p ∧ q) → ∃ e, (whole.member depth f.name (put (none, fields.blank)) >>= _) = _)
      rw [hmember]
      constructor
      · rintro ⟨hp, hq⟩
        simp only [bind, Except.bind, hf.readsBack hp hd hcs]
        exact hok hq
      · intro hpq
        by_cases hp : p
        · simp only [bind, Except.bind, hf.readsBack hp hd hcs]
          exact herror fun hq => hpq ⟨hp, hq⟩
        · obtain ⟨e, he⟩ := hf.refuses hp hd hcs
          simp only [bind, Except.bind, he]
          exact ⟨e, rfl⟩

/-- The record of kept members, which may stand among those of other records. -/
theorem ofKept_append {fields : Fields α δ} {a : α} {p : Prop} {n depth : Nat}
    (h : fields.ReadsBackIff n a p) (hd : n ≤ depth) (hnames : fields.names.Nodup)
    (before after : List Kept) {ks : List Kept} (hbefore : ∀ k ∈ before, k.name ∉ fields.names)
    (hks : fields.KeptAs a ks) (hafter : ∀ k ∈ after, k.name ∉ fields.names) :
    (p → fields.ofKept depth (before ++ (ks ++ after)) = .ok a) ∧
      (¬ p → ∃ e, fields.ofKept depth (before ++ (ks ++ after)) = .error e) := by
  obtain ⟨hok, herror⟩ := takeKept_append h hd hnames id (fields.into_member depth) hks after
  have hend : ∀ draft, fields.takeKept depth after draft = .ok draft := by
    intro draft
    have hskip := takeKept_skip hafter depth [] draft
    rw [List.append_nil] at hskip
    exact hskip
  simp only [ofKept, takeKept_skip hbefore]
  constructor
  · intro hp
    rw [id, id, hend] at hok
    rw [hok hp]
    exact complete_filled fields a
  · intro hp
    obtain ⟨e, he⟩ := herror hp
    rw [id] at he
    exact ⟨e, by rw [he]; rfl⟩

theorem membersFrom_keep {own : Fields γ ζ} {fields : Fields α δ} {a : α} {p : Prop} {depth : Nat}
    (h : fields.Skimmed a p) (hown : ∀ name ∈ fields.names, name ∉ own.names) {bound : List Char}
    (hbound : fields.length < bound.length) (first : Bool) (draft : ζ) (kept : List Kept)
    (members : List (List Char)) (rest : List Char) :
    (∃ ks bound' first', fields.KeptAs a ks ∧ bound'.length + fields.length = bound.length ∧
        membersFrom (own.memberOrKeep depth) bound first (draft, kept)
            (joined first (fields.memberTexts a ++ members) ++ '\x7d' :: rest) =
          membersFrom (own.memberOrKeep depth) bound' first' (draft, ks.reverse ++ kept)
            (joined first' members ++ '\x7d' :: rest)) ∨
      (¬ p ∧ ∃ e, membersFrom (own.memberOrKeep depth) bound first (draft, kept)
        (joined first (fields.memberTexts a ++ members) ++ '\x7d' :: rest) = .error e) := by
  induction fields generalizing bound first kept with
  | nil => exact .inl ⟨[], bound, first, rfl, rfl, rfl⟩
  | cons f fields ih =>
      obtain ⟨b, c⟩ := a
      obtain ⟨hf, hfields⟩ := h
      cases bound with
      | nil => exact absurd hbound (Nat.not_lt_zero _)
      | cons head bound =>
          have hrest := delimited_joined (fields.memberTexts c ++ members) rest
          have hmember : own.memberOrKeep depth f.name (draft, kept) = .ok fun cs =>
              (Value.read depth cs).map fun r => ((draft, ⟨f.name, cs⟩ :: kept), r.2) := by
            rw [memberOrKeep, member_eq_none (hown f.name List.mem_cons_self)]
            rfl
          have hstep := membersFrom_cons_of_ok _ hmember head bound first (f.codec.write b)
            (fields.memberTexts c ++ members) ('\x7d' :: rest)
          rw [memberTexts_cons, List.cons_append, hstep]
          rcases hf depth hrest with ⟨v, hv⟩ | ⟨hp, e, he⟩
          · simp only [bind, Except.bind, hv, Except.map]
            obtain ⟨ks, bound', first', hks, hlength, heq⟩ | herror := ih hfields
              (fun name hname => hown name (List.mem_cons_of_mem _ hname))
                (Nat.lt_of_succ_lt_succ hbound)
              false (⟨f.name, f.codec.write b ++ (joined false (fields.memberTexts c ++ members) ++
                '\x7d' :: rest)⟩ :: kept)
            · refine .inl ⟨_, bound', first', ⟨_, ks, hrest, hks, rfl⟩, ?_, ?_⟩
              · simp only [length, List.length_cons]
                omega
              · rw [List.reverse_cons, List.append_assoc]
                exact heq
            · exact .inr herror
          · simp only [bind, Except.bind, he, Except.map]
            exact .inr ⟨hp, e, rfl⟩

section Merged

variable {first : Fields α δ} {second : Fields β ε} {own : Fields γ ζ} {a : α} {b : β} {c : γ}
  {n : Nat} {p q r : Prop}

theorem into_own (own : Fields γ ζ) (depth : Nat) (kept : List Kept) :
    own.Into depth
      (fun name (known : ζ × List Kept) => (own.member depth name known.1).map
        (Option.map fun read cs => (read cs).map fun (draft, cs) => ((draft, known.2), cs)))
      fun draft => (draft, kept) := by
  intro name _ draft read hread
  dsimp only
  rw [hread]
  rfl

theorem memberOrKeep_of_member (own : Fields γ ζ) (depth : Nat) (name : String)
    (known : ζ × List Kept) (read : Reader (ζ × List Kept))
    (h : (own.member depth name known.1).map
      (Option.map fun read cs => (read cs).map fun (draft, cs) => ((draft, known.2), cs)) =
        .ok (some read)) :
    own.memberOrKeep depth name known = .ok read := by
  rw [memberOrKeep]
  match hmember : own.member depth name known.1 with
  | .error e =>
      rw [hmember] at h
      cases h
  | .ok none =>
      rw [hmember] at h
      cases h
  | .ok (some read') =>
      rw [hmember] at h
      cases h
      rfl

def mergedText (first : Fields α δ) (second : Fields β ε) (own : Fields γ ζ) (a : α) (b : β) (c : γ)
    (rest : List Char) : List Char :=
  joined true (first.memberTexts a ++ (second.memberTexts b ++ own.memberTexts c)) ++ '\x7d' :: rest

theorem length_le_mergedText (first : Fields α δ) (second : Fields β ε) (own : Fields γ ζ) (a : α)
    (b : β) (c : γ) (rest : List Char) :
    first.length + (second.length + own.length) ≤
      (mergedText first second own a b c rest).length := by
  have hlength := length_le_joined true
    (first.memberTexts a ++ (second.memberTexts b ++ own.memberTexts c)) rest
  simp only [List.length_append, length_memberTexts] at hlength
  rw [mergedText, List.length_append]
  omega

theorem membersFrom_merged {depth : Nat} (hown : own.ReadsBackIff n c r) (hd : n ≤ depth)
    (hskim : first.Skimmed a p) (hskim' : second.Skimmed b p)
    (hfirst : ∀ name ∈ first.names, name ∉ own.names)
    (hsecond : ∀ name ∈ second.names, name ∉ own.names)
    (hnames : own.names.Nodup) (bound : List Char)
    (hbound : first.length + (second.length + own.length) < bound.length) (rest : List Char) :
    let read := membersFrom (own.memberOrKeep depth) bound true (own.blank, [])
      (mergedText first second own a b c rest)
    (∃ ks ks', first.KeptAs a ks ∧ second.KeptAs b ks' ∧
        (r → read = .ok ((own.filled c, (ks ++ ks').reverse), rest)) ∧
        (¬ r → ∃ e, read = .error e)) ∨
      (¬ p ∧ ∃ e, read = .error e) := by
  dsimp only [mergedText]
  obtain ⟨ks, bound', start, hks, hlength, heq⟩ | herror := membersFrom_keep hskim hfirst
    (show first.length < bound.length by omega) true own.blank []
      (second.memberTexts b ++ own.memberTexts c) rest
  · obtain ⟨ks', bound'', start', hks', hlength', heq'⟩ | ⟨hp, herror⟩ :=
      membersFrom_keep hskim' hsecond (show second.length < bound'.length by omega) start own.blank
        (ks.reverse ++ []) (own.memberTexts c) rest
    · obtain ⟨hok, herror⟩ := membersFrom_append hown hd hnames
        (fun draft => (draft, ks'.reverse ++ (ks.reverse ++ []))) (into_own own depth _)
        (fun name known read => memberOrKeep_of_member own depth name known read) bound'' (by omega)
        start' rest
      rw [heq, heq']
      refine .inl ⟨ks, ks', hks, hks', fun hr => ?_, herror⟩
      rw [hok hr, List.reverse_append, List.append_nil]
    · rw [heq]
      exact .inr ⟨hp, herror⟩
  · exact .inr herror

/-- Either record is found among the members that were kept for both. -/
theorem ofKept_both {depth : Nat} {ks ks' : List Kept} (hfirst : first.ReadsBackIff n a p)
    (hsecond : second.ReadsBackIff n b q) (hd : n ≤ depth) (hnames : first.names.Nodup)
    (hnames' : second.names.Nodup) (hdisjoint : ∀ name ∈ first.names, name ∉ second.names)
    (hks : first.KeptAs a ks) (hks' : second.KeptAs b ks') :
    ((p → first.ofKept depth (ks ++ ks') = .ok a) ∧
      (¬ p → ∃ e, first.ofKept depth (ks ++ ks') = .error e)) ∧
    ((q → second.ofKept depth (ks ++ ks') = .ok b) ∧
      (¬ q → ∃ e, second.ofKept depth (ks ++ ks') = .error e)) := by
  constructor
  · exact ofKept_append hfirst hd hnames [] ks' (by simp) hks
      fun k hk hk' => hdisjoint k.name hk' (hks'.name_mem k hk)
  · have h := ofKept_append hsecond hd hnames' ks []
      (fun k hk hk' => hdisjoint k.name (hks.name_mem k hk) hk') hks' (by simp)
    rwa [List.append_nil] at h

end Merged

end Fields

theorem Codec.read_merged (what : String) (first : Fields α δ) (second : Fields β ε)
    (own : Fields γ ζ) (depth : Nat) (a : α) (b : β) (c : γ) (rest : List Char) :
    (Codec.merged what first second own).read (depth + 1)
      ((Codec.merged what first second own).write (a, b, c) ++ rest) = do
        let known ← membersFrom (own.memberOrKeep depth)
          ('\x7b' :: Fields.mergedText first second own a b c rest) true (own.blank, [])
          (Fields.mergedText first second own a b c rest)
        let a ← first.ofKept depth known.1.2.reverse
        let b ← second.ofKept depth known.1.2.reverse
        let c ← own.complete known.1.1
        return ((a, b, c), known.2) := by
  simp only [Codec.merged, objectText_append, List.append_assoc, Fields.mergedText]
  rw [skipSpaces_cons rfl]
  rfl

/-- An object of three records is read back just when all their fields are. -/
theorem Codec.ReadsBackIff.merged {first : Fields α δ} {second : Fields β ε} {own : Fields γ ζ}
    {n : Nat} {a : α} {b : β} {c : γ} {p q r : Prop} (what : String)
    (hfirst : first.ReadsBackIff n a p) (hsecond : second.ReadsBackIff n b q)
    (hown : own.ReadsBackIff n c r) (hskim : first.Skimmed a (p ∧ q ∧ r))
    (hskim' : second.Skimmed b (p ∧ q ∧ r))
    (hnames : (first.names ++ (second.names ++ own.names)).Nodup) :
    (Codec.merged what first second own).ReadsBackIff (n + 1) (a, b, c) (p ∧ q ∧ r) := by
  obtain ⟨hnodup, hrest, hdisjoint⟩ := List.nodup_append.mp hnames
  obtain ⟨hnodup', hnodup'', hdisjoint'⟩ := List.nodup_append.mp hrest
  have hmembers := fun depth rest (hd : n ≤ depth) => Fields.membersFrom_merged hown hd hskim hskim'
    (fun name hname hname' => hdisjoint name hname name (List.mem_append_right _ hname') rfl)
    (fun name hname hname' => hdisjoint' name hname name hname' rfl) hnodup''
    ('\x7b' :: Fields.mergedText first second own a b c rest)
    (Nat.lt_succ_of_le (Fields.length_le_mergedText first second own a b c rest)) rest
  have htake := fun depth (ks ks' : List Kept) (hd : n ≤ depth) =>
    @Fields.ofKept_both _ _ _ _ first second a b n p q depth ks ks' hfirst hsecond hd hnodup hnodup'
      fun name hname hname' => hdisjoint name hname name (List.mem_append_left _ hname') rfl
  constructor
  · rintro ⟨hp, hq, hr⟩ depth rest hd _
    obtain ⟨depth, rfl⟩ : ∃ d, depth = d + 1 := ⟨depth - 1, by omega⟩
    rw [read_merged]
    rcases hmembers depth rest (by omega) with ⟨ks, ks', hks, hks', hok, -⟩ | ⟨hpqr, -⟩
    · obtain ⟨⟨hokp, -⟩, hokq, -⟩ := htake depth ks ks' (by omega) hks hks'
      simp only [hok hr, bind, Except.bind, List.reverse_reverse, hokp hp, hokq hq,
        Fields.complete_filled]
      rfl
    · exact absurd ⟨hp, hq, hr⟩ hpqr
  · intro hpqr depth rest hd _
    obtain ⟨depth, rfl⟩ : ∃ d, depth = d + 1 := ⟨depth - 1, by omega⟩
    rw [read_merged]
    rcases hmembers depth rest (by omega) with ⟨ks, ks', hks, hks', hok, herror⟩ | ⟨-, e, he⟩
    · by_cases hr : r
      · obtain ⟨⟨hokp, herrorp⟩, -, herrorq⟩ := htake depth ks ks' (by omega) hks hks'
        simp only [hok hr, bind, Except.bind, List.reverse_reverse]
        by_cases hp : p
        · obtain ⟨e, he⟩ := herrorq fun hq => hpqr ⟨hp, hq, hr⟩
          exact ⟨e, by rw [hokp hp, he]⟩
        · obtain ⟨e, he⟩ := herrorp hp
          exact ⟨e, by rw [he]⟩
      · obtain ⟨e, he⟩ := herror hr
        exact ⟨e, by rw [he]; rfl⟩
    · exact ⟨e, by rw [he]; rfl⟩

end SignalEngine.Json
