import SignalEngine.Json.Tagged
import SignalEngine.Proofs.Json.Codec

namespace SignalEngine.Json

/-- Members as they stand in an object after its bracket, or after another member. -/
def joined (first : Bool) (members : List (List Char)) : List Char :=
  if first then separated members else members.flatMap (',' :: ·)

/-- A member with its name. -/
def memberText (name : String) (content : List Char) : List Char :=
  stringText name ++ ':' :: content

theorem joined_cons (first : Bool) (member : List Char) (members : List (List Char)) :
    joined first (member :: members) =
      (if first then [] else [',']) ++ (member ++ joined false members) := by
  cases first with
  | true => simp [joined, Codec.separated_cons]
  | false => simp [joined]

theorem delimited_joined (members : List (List Char)) (rest : List Char) :
    Delimited (joined false members ++ '\x7d' :: rest) := by
  cases members with
  | nil => exact delimited_brace rest
  | cons member members => exact delimited_comma _

theorem nextKey_member (first : Bool) (name : String) (rest : List Char) :
    nextKey first ((if first then [] else [',']) ++ (stringText name ++ rest)) =
      .ok (some name, rest) := by
  rw [stringText_append]
  cases first with
  | true =>
      rw [if_pos rfl, List.nil_append, nextKey, skipSpaces_cons rfl]
      exact congrArg (Except.map fun p => (some p.1, p.2)) (stringBody_append name rest)
  | false =>
      rw [if_neg Bool.false_ne_true, List.singleton_append, nextKey, skipSpaces_cons rfl]
      exact congrArg (Except.map fun p => (some p.1, p.2)) (stringBody_append name rest)

theorem nextKey_end (first : Bool) (rest : List Char) :
    nextKey first ('\x7d' :: rest) = .ok (none, rest) := by
  rw [nextKey, skipSpaces_cons rfl]
  rfl

section Members

variable (member : String → σ → Except Error (Reader σ))

theorem membersFrom_cons (head : Char) (bound : List Char) (first : Bool) (known : σ)
    (name : String) (content : List Char) (members : List (List Char)) (tail : List Char) :
    membersFrom member (head :: bound) first known
      (joined first (memberText name content :: members) ++ tail) =
      (do
        let read ← member name known
        let (known, rest) ← read (content ++ (joined false members ++ tail))
        membersFrom member bound false known rest) := by
  rw [joined_cons, membersFrom, memberText, List.append_assoc, List.append_assoc, List.append_assoc,
    nextKey_member]
  simp only [List.cons_append, bind, Except.bind, colon]
  cases member name known <;> rfl

theorem membersFrom_cons_of_ok {name : String} {known : σ} {read : Reader σ}
    (h : member name known = .ok read) (head : Char) (bound : List Char) (first : Bool)
    (content : List Char) (members : List (List Char)) (tail : List Char) :
    membersFrom member (head :: bound) first known
      (joined first (memberText name content :: members) ++ tail) =
      read (content ++ (joined false members ++ tail)) >>= fun (known, rest) =>
        membersFrom member bound false known rest := by
  rw [membersFrom_cons, h]
  rfl

theorem membersFrom_nil (head : Char) (bound : List Char) (first : Bool) (known : σ)
    (rest : List Char) :
    membersFrom member (head :: bound) first known (joined first [] ++ '\x7d' :: rest) =
      .ok (known, rest) := by
  have hjoined : joined first [] = [] := by
    cases first <;> rfl
  rw [hjoined, List.nil_append, membersFrom, nextKey_end]
  rfl

end Members

theorem length_le_joined (first : Bool) (members : List (List Char)) (rest : List Char) :
    members.length ≤ (joined first members ++ '\x7d' :: rest).length := by
  cases first with
  | true =>
      cases members with
      | nil => exact Nat.zero_le _
      | cons member members =>
          have h := Codec.length_le_flatMap members
          rw [joined, if_pos rfl, Codec.separated_cons]
          simp only [List.length_append, List.length_cons]
          omega
  | false =>
      have h := Codec.length_le_flatMap members
      rw [joined, if_neg Bool.false_ne_true, List.length_append]
      omega

namespace Fields

/-- The values of the fields are read back under a condition, and one of them is refused without
it. -/
inductive ReadsBackIff (n : Nat) : {α δ : Type} → Fields α δ → α → Prop → Prop
  | nil : ReadsBackIff n .nil () True
  | cons {β γ δ : Type} {f : Field β} {rest : Fields γ δ} {b : β} {c : γ} {p q : Prop} :
      f.codec.ReadsBackIff n b p → ReadsBackIff n rest c q →
        ReadsBackIff n (.cons f rest) (b, c) (p ∧ q)

theorem ReadsBackIff.congr {n : Nat} {fields : Fields α δ} {a : α} {p q : Prop}
    (h : fields.ReadsBackIff n a p) (hpq : p ↔ q) : fields.ReadsBackIff n a q := by
  rwa [← propext hpq]

theorem ReadsBackIff.required {n : Nat} {codec : Codec β} {rest : Fields γ ζ} {b : β} {c : γ}
    {p q : Prop} (name : String) (h : codec.ReadsBackIff n b p) (hrest : rest.ReadsBackIff n c q) :
    (Fields.required name codec rest).ReadsBackIff n (b, c) (p ∧ q) :=
  .cons h hrest

theorem ReadsBackIff.defaulted {n : Nat} {codec : Codec β} {rest : Fields γ ζ} {b : β} {c : γ}
    {p q : Prop} (name : String) (value : β) (h : codec.ReadsBackIff n b p)
    (hrest : rest.ReadsBackIff n c q) :
    (Fields.defaulted name codec value rest).ReadsBackIff n (b, c) (p ∧ q) :=
  .cons h hrest

theorem ReadsBackIff.optional {n : Nat} {codec : Codec β} {rest : Fields γ ζ} {b : Option β} {c : γ}
    {p q : Prop} (name : String) (h : codec.option.ReadsBackIff n b p)
    (hrest : rest.ReadsBackIff n c q) :
    (Fields.optional name codec rest).ReadsBackIff n (b, c) (p ∧ q) :=
  .cons h hrest

def filled : Fields α δ → α → δ
  | .nil, _ => ()
  | .cons _ rest, (b, c) => (some b, rest.filled c)

theorem complete_filled (fields : Fields α δ) (a : α) :
    fields.complete (fields.filled a) = .ok a := by
  induction fields with
  | nil => rfl
  | cons f rest ih =>
      obtain ⟨b, c⟩ := a
      simp only [filled, complete, ih]
      rfl

theorem memberTexts_cons (f : Field β) (rest : Fields γ ζ) (b : β) (c : γ) :
    (Fields.cons f rest).memberTexts (b, c) =
      memberText f.name (f.codec.write b) :: rest.memberTexts c := rfl

theorem blank_cons (f : Field β) (rest : Fields γ ζ) :
    (Fields.cons f rest).blank = (none, rest.blank) := rfl

theorem length_memberTexts (fields : Fields α δ) (a : α) :
    (fields.memberTexts a).length = fields.length := by
  induction fields with
  | nil => rfl
  | cons f rest ih =>
      obtain ⟨b, c⟩ := a
      simp only [memberTexts, length, List.length_cons, ih]

/-- The members of the fields go into a part of what is known. -/
def Into (fields : Fields α δ) (depth : Nat) (step : String → σ → Except Error (Option (Reader σ)))
    (put : δ → σ) : Prop :=
  ∀ name ∈ fields.names, ∀ draft read, fields.member depth name draft = .ok (some read) →
    step name (put draft) = .ok (some fun cs => (read cs).map fun (draft, cs) => (put draft, cs))

theorem into_member (fields : Fields α δ) (depth : Nat) :
    fields.Into depth (fields.member depth) id := by
  intro name _ draft read hread
  rw [id, hread]
  congr 2
  funext cs
  cases read cs <;> rfl

theorem Into.rest {f : Field β} {rest : Fields γ ζ} {depth : Nat}
    {step : String → σ → Except Error (Option (Reader σ))} {put : Option β × ζ → σ}
    (h : (Fields.cons f rest).Into depth step put) (hname : f.name ∉ rest.names) (b : Option β) :
    rest.Into depth step fun draft => put (b, draft) := by
  intro name hmem draft read hread
  have hne : name ≠ f.name := fun heq => hname (heq ▸ hmem)
  have hmember : (Fields.cons f rest).member depth name (b, draft) =
      .ok (some fun cs => (read cs).map fun (draft, cs) => ((b, draft), cs)) := by
    simp only [member, if_neg hne, hread]
    rfl
  rw [h name (List.mem_cons_of_mem _ hmem) _ _ hmember]
  congr 2
  funext cs
  cases read cs <;> rfl

theorem member_blank (f : Field β) (rest : Fields γ ζ) (depth : Nat) (draft : ζ) :
    (Fields.cons f rest).member depth f.name (none, draft) =
      .ok (some fun cs => (f.codec.read depth cs).map fun (b, cs) => ((some b, draft), cs)) := by
  simp [Fields.member]

/-- The members of the written fields fill the draft, or one of them is refused. The induction is on
the fields that are still to be read; the others stay in the draft as they are. -/
theorem membersFrom_append {fields : Fields α δ} {a : α} {p : Prop} {n depth : Nat}
    {step : String → σ → Except Error (Option (Reader σ))}
    {known : String → σ → Except Error (Reader σ)}
    (h : fields.ReadsBackIff n a p) (hd : n ≤ depth) (hnames : fields.names.Nodup) (put : δ → σ)
    (hinto : fields.Into depth step put)
    (hknown : ∀ name s read, step name s = .ok (some read) → known name s = .ok read)
    (bound : List Char) (hbound : fields.length < bound.length) (first : Bool) (rest : List Char) :
    (p → membersFrom known bound first (put fields.blank)
        (joined first (fields.memberTexts a) ++ '\x7d' :: rest) =
          .ok (put (fields.filled a), rest)) ∧
      (¬ p → ∃ e, membersFrom known bound first (put fields.blank)
        (joined first (fields.memberTexts a) ++ '\x7d' :: rest) = .error e) := by
  induction h generalizing bound first with
  | nil =>
      match bound, hbound with
      | head :: bound, _ =>
          exact ⟨fun _ => membersFrom_nil known head bound first _ rest,
            fun hp => absurd trivial hp⟩
  | @cons β γ δ f fields b c p q hf hfields ih =>
      match bound, hbound with
      | head :: bound, hbound =>
          obtain ⟨hname, hnames⟩ := List.nodup_cons.mp hnames
          have hmember := hknown _ _ _
            (hinto f.name List.mem_cons_self _ _ (member_blank f fields depth fields.blank))
          obtain ⟨hok, herror⟩ := ih hnames (fun draft => put (some b, draft))
            (hinto.rest hname _) bound
            (Nat.lt_of_succ_lt_succ hbound) false
          have hrest := delimited_joined (fields.memberTexts c) rest
          have hstep := membersFrom_cons_of_ok _ hmember head bound first (f.codec.write b)
            (fields.memberTexts c) ('\x7d' :: rest)
          rw [memberTexts_cons, blank_cons, hstep]
          constructor
          · rintro ⟨hp, hq⟩
            rw [hf.readsBack hp hd hrest]
            exact hok hq
          · intro hpq
            by_cases hp : p
            · rw [hf.readsBack hp hd hrest]
              exact herror fun hq => hpq ⟨hp, hq⟩
            · obtain ⟨e, he⟩ := hf.refuses hp hd hrest
              exact ⟨e, by rw [he]; rfl⟩

theorem memberOrSkip_of_member (fields : Fields α δ) (depth : Nat) (name : String) (draft : δ)
    (read : Reader δ) (h : fields.member depth name draft = .ok (some read)) :
    fields.memberOrSkip depth name draft = .ok read := by
  rw [memberOrSkip, h]
  rfl

end Fields

theorem objectText_append (members : List (List Char)) (rest : List Char) :
    objectText members ++ rest = '\x7b' :: (joined true members ++ '\x7d' :: rest) := by
  simp [objectText, joined]

/-- A record is read back just when its fields are. -/
theorem Codec.ReadsBackIff.record {fields : Fields α δ} {n : Nat} {p : Prop} {b : β}
    {make : α → β} {parts : β → α} (what : String) (h : fields.ReadsBackIff n (parts b) p)
    (hnames : fields.names.Nodup) (hmake : make (parts b) = b) :
    (Codec.record what fields make parts).ReadsBackIff (n + 1) b p := by
  have hread : ∀ depth rest, n ≤ depth →
      (Codec.record what fields make parts).read (depth + 1)
        ((Codec.record what fields make parts).write b ++ rest) =
      (do
        let (draft, rest) ← membersFrom (fields.memberOrSkip depth)
          ('\x7b' :: (joined true (fields.memberTexts (parts b)) ++ '\x7d' :: rest)) true
            (id fields.blank)
          (joined true (fields.memberTexts (parts b)) ++ '\x7d' :: rest)
        return (← fields.complete draft, rest)).map fun (a, rest) => (make a, rest) := by
    intro depth rest _
    simp only [Codec.record, objectText_append, Fields.read]
    rw [skipSpaces_cons rfl]
    rfl
  have hmembers := fun depth rest (hd : n ≤ depth) => Fields.membersFrom_append h hd hnames id
    (fields.into_member depth) (fields.memberOrSkip_of_member depth)
    ('\x7b' :: (joined true (fields.memberTexts (parts b)) ++ '\x7d' :: rest))
    (by
      have := length_le_joined true (fields.memberTexts (parts b)) rest
      rw [Fields.length_memberTexts] at this
      exact Nat.lt_succ_of_le this) true rest
  constructor
  · intro hp depth rest hd _
    obtain ⟨depth, rfl⟩ : ∃ d, depth = d + 1 := ⟨depth - 1, by omega⟩
    rw [hread depth rest (by omega), (hmembers depth rest (by omega)).1 hp]
    simp only [bind, Except.bind, id, Fields.complete_filled]
    exact congrArg (fun b => Except.ok (b, rest)) hmake
  · intro hp depth rest hd _
    obtain ⟨depth, rfl⟩ : ∃ d, depth = d + 1 := ⟨depth - 1, by omega⟩
    obtain ⟨e, he⟩ := (hmembers depth rest (by omega)).2 hp
    exact ⟨e, by rw [hread depth rest (by omega), he]; rfl⟩

theorem Codec.opens_record {fields : Fields α δ} {make : α → β} {parts : β → α} (what : String)
    (b : β) :
    Codec.Opens ((Codec.record what fields make parts).write b) :=
  ⟨'\x7b', _, rfl, rfl, by decide, by decide⟩

theorem Codec.readsBackIff_enumeration {values : List β} {name : β → String} {b : β} {k : Nat}
    (hb : b ∈ values) (hname : ∀ a ∈ values, name a = name b → a = b) :
    (Codec.enumeration values name).ReadsBackIff k b True := by
  apply ReadsBackIff.of_readsBack
  intro depth rest _ _
  have hfind : Variant.named (values.map fun a => Variant.unit (name a) a) (name b) =
      .ok (Variant.unit (name b) b) := by
    rw [Variant.named]
    cases hf : (values.map fun a => Variant.unit (name a) a).find? fun v => v.name == name b with
    | some v =>
        obtain ⟨a, ha, rfl⟩ := List.mem_map.mp (List.mem_of_find?_eq_some hf)
        have heq := List.find?_some hf
        obtain rfl := hname a ha (beq_iff_eq.mp heq)
        rfl
    | none =>
        have hnot := List.find?_eq_none.mp hf _ (List.mem_map_of_mem hb)
        exact absurd (beq_iff_eq.mpr rfl) hnot
  simp only [Codec.enumeration, Variant.read, stringText_append]
  rw [skipSpaces_cons rfl]
  simp only [stringBody_append, hfind, bind, Except.bind]
  rfl

end SignalEngine.Json
