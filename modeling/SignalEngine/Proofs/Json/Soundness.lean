import SignalEngine.Json.Record

namespace SignalEngine

theorem bind_eq_ok {ε α β : Type} {x : Except ε α} {f : α → Except ε β} {b : β} :
    x >>= f = .ok b ↔ ∃ a, x = .ok a ∧ f a = .ok b := by
  cases x with
  | error e => exact ⟨nofun, fun ⟨_, h, _⟩ => nomatch h⟩
  | ok a =>
      constructor
      · intro h
        exact ⟨a, rfl, h⟩
      · rintro ⟨a', ha, h⟩
        cases ha
        exact h

theorem map_eq_ok {ε α β : Type} {x : Except ε α} {f : α → β} {b : β} :
    x.map f = .ok b ↔ ∃ a, x = .ok a ∧ f a = b := by
  cases x with
  | error e => exact ⟨nofun, fun ⟨_, h, _⟩ => nomatch h⟩
  | ok a =>
      constructor
      · intro h
        exact ⟨a, rfl, Except.ok.inj h⟩
      · rintro ⟨a', ha, h⟩
        cases ha
        exact congrArg _ h

theorem mapError_eq_ok {ε ε' α : Type} {x : Except ε α} {f : ε → ε'} {a : α} :
    x.mapError f = .ok a ↔ x = .ok a := by
  cases x with
  | error e => exact ⟨nofun, nofun⟩
  | ok b => exact ⟨fun h => congrArg _ (Except.ok.inj h), fun h => congrArg _ (Except.ok.inj h)⟩

end SignalEngine

namespace SignalEngine.Json

theorem Codec.decode_eq_ok {c : Codec α} {text : String} {a : α} :
    c.decode text = .ok a ↔ ∃ rest, c.read maxDepth text.toList = .ok (a, rest) ∧
      skipSpaces rest = [] := by
  constructor
  · intro h
    obtain ⟨⟨a', rest⟩, hread, hend⟩ := bind_eq_ok.1 h
    dsimp only at hend
    split at hend
    · rename_i hspaces
      cases hend
      exact ⟨rest, hread, hspaces⟩
    · cases hend
  · rintro ⟨rest, hread, hspaces⟩
    rw [Codec.decode, hread]
    simp only [bind, Except.bind, hspaces]
    rfl

/-- Every value that is read has the property. -/
def Codec.Yields (c : Codec α) (P : α → Prop) : Prop :=
  ∀ ⦃depth cs a rest⦄, c.read depth cs = .ok (a, rest) → P a

theorem Codec.yields_true (c : Codec α) : c.Yields fun _ => True :=
  fun _ _ _ _ _ => trivial

theorem Codec.Yields.decode {c : Codec α} {P : α → Prop} (h : c.Yields P) {text : String} {a : α}
    (hread : c.decode text = .ok a) : P a := by
  obtain ⟨rest, hvalue, -⟩ := Codec.decode_eq_ok.1 hread
  exact h hvalue

/-- The fields yield values of one property, and their drafts have the other on the way. -/
inductive Fields.Yields : {α δ : Type} → Fields α δ → (α → Prop) → (δ → Prop) → Prop
  | nil : Yields .nil (fun _ => True) fun _ => True
  | cons {β γ δ : Type} {f : Field β} {rest : Fields γ δ} {P : β → Prop} {Q : γ → Prop}
    {D : δ → Prop} :
      f.codec.Yields P → (∀ b, f.absence = .allowed b ∨ f.absence = .defaulted b → P b) →
      Yields rest Q D →
      Yields (.cons f rest) (fun a => P a.1 ∧ Q a.2) fun d => (∀ b ∈ d.1, P b) ∧ D d.2

namespace Fields

theorem Yields.required {codec : Codec β} {rest : Fields γ δ} {P : β → Prop} {Q : γ → Prop}
    {D : δ → Prop} (name : String) (h : codec.Yields P) (hrest : rest.Yields Q D) :
    (Fields.required name codec rest).Yields (fun a => P a.1 ∧ Q a.2)
      fun d => (∀ b ∈ d.1, P b) ∧ D d.2 := by
  refine .cons h ?_ hrest
  rintro b (hb | hb) <;> cases hb

theorem Yields.blank {fields : Fields α δ} {P : α → Prop} {D : δ → Prop} (h : fields.Yields P D) :
    D fields.blank := by
  induction h with
  | nil => trivial
  | cons _ _ _ ih => exact ⟨nofun, ih⟩

theorem Yields.missing {f : Field β} {P : β → Prop}
    (h : ∀ b, f.absence = .allowed b ∨ f.absence = .defaulted b → P b) {b : β}
    (hb : f.missing = .ok b) : P b := by
  cases habsence : f.absence with
  | forbidden =>
      rw [Field.missing, habsence] at hb
      cases hb
  | allowed value =>
      rw [Field.missing, habsence] at hb
      cases hb
      exact h _ (.inl habsence)
  | defaulted value =>
      rw [Field.missing, habsence] at hb
      cases hb
      exact h _ (.inr habsence)

theorem Yields.beyond_field {f : Field β} {P : β → Prop}
    (h : ∀ b, f.absence = .allowed b ∨ f.absence = .defaulted b → P b) {position : Nat}
    {expected : String} {b : β} (hb : f.beyond position expected = .ok b) : P b := by
  cases habsence : f.absence with
  | forbidden =>
      rw [Field.beyond, habsence] at hb
      cases hb
  | allowed value =>
      rw [Field.beyond, habsence] at hb
      cases hb
  | defaulted value =>
      rw [Field.beyond, habsence] at hb
      cases hb
      exact h _ (.inr habsence)

theorem Yields.complete {fields : Fields α δ} {P : α → Prop} {D : δ → Prop} (h : fields.Yields P D)
    {draft : δ} (hdraft : D draft) {a : α} (ha : fields.complete draft = .ok a) : P a := by
  induction h with
  | nil => trivial
  | @cons β γ δ f rest P Q D hf habsence hrest ih =>
      obtain ⟨b, draft⟩ := draft
      obtain ⟨hb, hdraft⟩ := hdraft
      cases b with
      | some b =>
          simp only [Fields.complete, bind, Except.bind, pure, Except.pure] at ha
          split at ha
          · cases ha
          rename_i c hc
          cases ha
          exact ⟨hb b rfl, ih hdraft hc⟩
      | none =>
          simp only [Fields.complete, bind, Except.bind] at ha
          split at ha
          · cases ha
          rename_i b hmissing
          split at ha
          · cases ha
          rename_i c hc
          cases ha
          exact ⟨Yields.missing habsence hmissing, ih hdraft hc⟩

theorem Yields.beyond {fields : Fields α δ} {P : α → Prop} {D : δ → Prop} (h : fields.Yields P D)
    {expected : String} {position : Nat} {a : α} (ha : fields.beyond expected position = .ok a) :
      P a := by
  induction h generalizing position with
  | nil => trivial
  | @cons β γ δ f rest P Q D hf habsence hrest ih =>
      simp only [Fields.beyond, bind, Except.bind] at ha
      split at ha
      · cases ha
      · rename_i b hb
        split at ha
        · cases ha
        · rename_i c hc
          cases ha
          exact ⟨Yields.beyond_field habsence hb, ih hc⟩

theorem Yields.fromElements {fields : Fields α δ} {P : α → Prop} {D : δ → Prop}
    (h : fields.Yields P D)
    {depth : Nat} {expected : String} {position : Nat} {cs rest : List Char} {a : α}
    (ha : fields.fromElements depth expected position cs = .ok (a, rest)) : P a := by
  induction h generalizing position cs rest with
  | nil => trivial
  | @cons β γ δ f fields P Q D hf habsence hrest ih =>
      simp only [Fields.fromElements, bind, Except.bind] at ha
      split at ha
      · cases ha
      rename_i p _
      split at ha
      · split at ha
        · cases ha
        rename_i b hb
        split at ha
        · cases ha
        rename_i c hc
        cases ha
        exact ⟨hf hb, ih hc⟩
      · split at ha
        · cases ha
        rename_i b hb
        split at ha
        · cases ha
        rename_i c hc
        cases ha
        exact ⟨Yields.beyond_field habsence hb, hrest.beyond hc⟩

theorem Yields.member {fields : Fields α δ} {P : α → Prop} {D : δ → Prop} (h : fields.Yields P D)
    {depth : Nat} {name : String} {draft draft' : δ} {read : Reader δ} {cs rest : List Char}
    (hdraft : D draft) (hmember : fields.member depth name draft = .ok (some read))
    (hread : read cs = .ok (draft', rest)) : D draft' := by
  induction h generalizing rest with
  | nil => cases hmember
  | @cons β γ δ f fields P Q D hf _ hrest ih =>
      obtain ⟨b, draft⟩ := draft
      obtain ⟨hb, hdraft⟩ := hdraft
      simp only [Fields.member] at hmember
      split at hmember
      · split at hmember
        · cases hmember
        · cases hmember
          match hvalue : f.codec.read depth cs with
          | .error e =>
              simp only [hvalue] at hread
              cases hread
          | .ok (b', rest') =>
              simp only [hvalue] at hread
              cases hread
              refine ⟨fun b'' hb'' => ?_, hdraft⟩
              cases hb''
              exact hf hvalue
      · match hinner : fields.member depth name draft with
        | .error e =>
            simp only [hinner] at hmember
            cases hmember
        | .ok none =>
            simp only [hinner] at hmember
            cases hmember
        | .ok (some inner) =>
            simp only [hinner] at hmember
            cases hmember
            match hvalue : inner cs with
            | .error e =>
                simp only [hvalue] at hread
                cases hread
            | .ok (draft'', rest') =>
                simp only [hvalue] at hread
                cases hread
                exact ⟨hb, ih hdraft hinner hvalue⟩

theorem Yields.memberOrSkip {fields : Fields α δ} {P : α → Prop} {D : δ → Prop}
    (h : fields.Yields P D)
    {depth : Nat} {name : String} {draft draft' : δ} {read : Reader δ} {cs rest : List Char}
    (hdraft : D draft) (hmember : fields.memberOrSkip depth name draft = .ok read)
    (hread : read cs = .ok (draft', rest)) : D draft' := by
  simp only [Fields.memberOrSkip, bind, Except.bind] at hmember
  split at hmember
  · cases hmember
  rename_i inner hinner
  split at hmember
  · cases hmember
    exact h.member hdraft hinner hread
  · cases hmember
    match hskip : skipValue cs with
    | .error e =>
        simp only [hskip] at hread
        cases hread
    | .ok rest' =>
        simp only [hskip] at hread
        cases hread
        exact hdraft

end Fields

theorem membersFrom_invariant {D : σ → Prop} {member : String → σ → Except Error (Reader σ)}
    (hmember : ∀ {name known known' read cs rest}, D known → member name known = .ok read →
      read cs = .ok (known', rest) → D known')
    {bound : List Char} {first : Bool} {known known' : σ} {cs rest : List Char} (hknown : D known)
    (h : membersFrom member bound first known cs = .ok (known', rest)) : D known' := by
  induction bound generalizing first known cs with
  | nil => cases h
  | cons head bound ih =>
      simp only [membersFrom, bind, Except.bind] at h
      split at h
      · cases h
      split at h
      · cases h
        exact hknown
      split at h
      · cases h
      rename_i read hread
      split at h
      · cases h
      split at h
      · cases h
      rename_i p hp
      exact ih (hmember hknown hread hp) h

theorem Codec.Yields.record {fields : Fields α δ} {P : α → Prop} {D : δ → Prop} {make : α → β}
    {parts : β → α} (what : String) (h : fields.Yields P D) {R : β → Prop}
    (hR : ∀ a, P a → R (make a)) :
    (Codec.record what fields make parts).Yields R := by
  intro depth cs b rest hread
  match hfields : fields.read what depth cs with
  | .error e =>
      simp only [Codec.record, hfields] at hread
      cases hread
  | .ok (a, rest') =>
      simp only [Codec.record, hfields] at hread
      cases hread
      apply hR
      rw [Fields.read] at hfields
      split at hfields
      · split at hfields
        · cases hfields
        · exact h.fromElements hfields
      · split at hfields
        · cases hfields
        · simp only [bind, Except.bind] at hfields
          split at hfields
          · cases hfields
          rename_i draft hdraft
          split at hfields
          · cases hfields
          rename_i a' ha'
          cases hfields
          exact h.complete (membersFrom_invariant
            (fun hk hm hr => h.memberOrSkip hk hm hr) h.blank hdraft)
            ha'
      · simp only [misfit, bind, Except.bind] at hfields
        split at hfields <;> cases hfields

end SignalEngine.Json
