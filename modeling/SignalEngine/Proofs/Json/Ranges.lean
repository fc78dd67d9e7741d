import SignalEngine.Json.Merged
import SignalEngine.Json.Tagged
import SignalEngine.Proofs.Json.Soundness
import SignalEngine.Proofs.Number.Finite

namespace SignalEngine.Json

/-- The number of a head, if it is one, is finite, and a whole number fits into 64 bits. -/
def Lead.Bounded : Lead → Prop
  | .integer n => -2 ^ 63 ≤ n ∧ n < 2 ^ 64
  | .real x => x.isFinite = true
  | _ => True

theorem bounded_realNumber {negative : Bool} {n : Number.Numeral} {l : Lead}
    (h : realNumber negative n = .ok l) : l.Bounded := by
  unfold realNumber at h
  dsimp only at h
  split at h
  · cases h
  · rename_i hinf
    cases h
    exact Number.isFinite_withSign _ (Number.isFinite_value (Bool.eq_false_of_not_eq_true hinf))

theorem bounded_wholeNumber {negative : Bool} {digits : List Char} {l : Lead}
    (h : wholeNumber negative digits = .ok l) : l.Bounded := by
  unfold wholeNumber at h
  dsimp only at h
  split at h
  · split at h
    · exact bounded_realNumber h
    · rename_i hword
      cases h
      simp only [Number.wordValues, Nat.pow_eq, not_or, not_lt] at hword
      simp only [Lead.Bounded, Int.ofNat_eq_natCast]
      omega
  · split at h
    · rename_i hword
      cases h
      have hlt : Number.natOfDigits digits < 2 ^ 64 := of_decide_eq_true hword
      simp only [Lead.Bounded]
      omega
    · exact bounded_realNumber h

theorem bounded_number {negative : Bool} {cs rest : List Char} {l : Lead}
    (h : number negative cs = .ok (l, rest)) : l.Bounded := by
  obtain ⟨whole, -, h⟩ := bind_eq_ok.1 h
  obtain ⟨fraction, -, h⟩ := bind_eq_ok.1 h
  obtain ⟨exponent, -, h⟩ := bind_eq_ok.1 h
  dsimp only at h
  split at h
  · obtain ⟨l', hlead, h⟩ := bind_eq_ok.1 h
    cases h
    exact bounded_wholeNumber hlead
  · obtain ⟨l', hlead, h⟩ := bind_eq_ok.1 h
    cases h
    exact bounded_realNumber hlead

theorem bounded_lead {cs rest : List Char} {l : Lead} (h : lead cs = .ok (l, rest)) :
    l.Bounded := by
  have hmap {α : Type} {x : Except Error α} {f : α → Lead × List Char}
      (h : x.map f = .ok (l, rest)) (hf : ∀ a, (f a).1.Bounded) : l.Bounded := by
    obtain ⟨a, -, ha⟩ := map_eq_ok.1 h
    have hbounded := hf a
    rwa [ha] at hbounded
  rw [lead] at h
  split at h
  · cases h
  · exact hmap h fun _ => trivial
  · exact hmap h fun _ => trivial
  · exact hmap h fun _ => trivial
  · exact bounded_number h
  · exact hmap h fun _ => trivial
  · cases h
    trivial
  · cases h
    trivial
  · split at h
    · exact bounded_number h
    · cases h

namespace Codec

theorem yields_scalar {accept : Lead → Except Error α} {P : α → Prop} {c : Codec α}
    (hread : ∀ depth, c.read depth = scalar accept)
    (h : ∀ l a, l.Bounded → accept l = .ok a → P a) : c.Yields P := by
  intro depth cs a rest hok
  rw [hread] at hok
  obtain ⟨p, hlead, hok⟩ := bind_eq_ok.1 hok
  obtain ⟨a', haccept, hok⟩ := bind_eq_ok.1 hok
  cases hok
  exact h p.1 _ (bounded_lead hlead) haccept

theorem yields_real : Codec.real.Yields (·.isFinite = true) := by
  refine yields_scalar (fun _ => rfl) fun l x hl h => ?_
  cases l with
  | integer n =>
      cases h
      exact Number.isFinite_ofInt (by have := hl.1; omega) hl.2
  | real x =>
      cases h
      exact hl
  | _ => cases h

theorem yields_integer {low high : Int} (name : String) :
    (Codec.integer low high name).Yields fun n => low ≤ n ∧ n < high := by
  refine yields_scalar (fun _ => rfl) fun l n _ h => ?_
  cases l with
  | integer m =>
      simp only [acceptInteger] at h
      split at h
      · rename_i hrange
        cases h
        exact hrange
      · cases h
  | _ => cases h

theorem map_wrap_eq_ok {α β : Type} {x : Except Error (α × List Char)} {wrap : α → β} {b : β}
    {rest : List Char} (h : (x.map fun (a, rest) => (wrap a, rest)) = .ok (b, rest)) :
    ∃ a, x = .ok (a, rest) ∧ b = wrap a := by
  obtain ⟨p, hp, hb⟩ := map_eq_ok.1 h
  cases hb
  exact ⟨p.1, hp, rfl⟩

theorem Yields.map {c : Codec α} {P : α → Prop} {Q : β → Prop} {wrap : α → β} {unwrap : β → α}
    (h : c.Yields P) (hwrap : ∀ a, P a → Q (wrap a)) : (c.map wrap unwrap).Yields Q := by
  intro depth cs b rest hread
  obtain ⟨a, ha, rfl⟩ := map_wrap_eq_ok hread
  exact hwrap a (h ha)

theorem yields_natural (bound : Nat) (name : String) :
    (Codec.natural bound name).Yields (· < bound) := by
  refine (yields_integer name).map fun n hn => ?_
  omega

theorem yields_count : Codec.count.Yields (· < 2 ^ 64) := yields_natural _ _

theorem yields_identifier : Codec.identifier.Yields (· < 2 ^ 32) := yields_natural _ _

theorem yields_time : Codec.time.Yields fun n => -2 ^ 63 ≤ n ∧ n < 2 ^ 63 := yields_integer _

theorem yields_small : Codec.small.Yields fun n => -2 ^ 31 ≤ n ∧ n < 2 ^ 31 := yields_integer _

theorem Yields.option {c : Codec α} {P : α → Prop} (h : c.Yields P) :
    c.option.Yields fun o => ∀ a ∈ o, P a := by
  intro depth cs o rest hread
  simp only [Codec.option] at hread
  split at hread
  · obtain ⟨rest', -, ho⟩ := map_eq_ok.1 hread
    cases ho
    nofun
  · obtain ⟨a, ha, rfl⟩ := map_wrap_eq_ok hread
    rintro a' ⟨⟩
    exact h ha

theorem elementsFrom_invariant {item : Reader α} {P : α → Prop}
    (hitem : ∀ {cs a rest}, item cs = .ok (a, rest) → P a) {bound : List Char} {first : Bool}
    {known items : List α} {cs rest : List Char} (hknown : ∀ a ∈ known, P a)
    (h : elementsFrom item bound first known cs = .ok (items, rest)) : ∀ a ∈ items, P a := by
  induction bound generalizing first known cs with
  | nil => cases h
  | cons head bound ih =>
      obtain ⟨next, -, h⟩ := bind_eq_ok.1 h
      split at h
      split at h
      · obtain ⟨p, hp, h⟩ := bind_eq_ok.1 h
        exact ih (List.forall_mem_cons.2 ⟨hitem hp, hknown⟩) h
      · cases h
        intro a ha
        exact hknown a (List.mem_reverse.1 ha)

theorem Yields.list {c : Codec α} {P : α → Prop} (h : c.Yields P) :
    (Codec.list c).Yields fun items => ∀ a ∈ items, P a := by
  intro depth cs items rest hread
  simp only [Codec.list] at hread
  split at hread
  · split at hread
    · cases hread
    · exact elementsFrom_invariant (fun hitem => h hitem) (List.forall_mem_nil _) hread
  · obtain ⟨head, -, hread⟩ := bind_eq_ok.1 hread
    cases hread

end Codec

namespace Fields

theorem Yields.defaulted {codec : Codec β} {rest : Fields γ δ} {P : β → Prop} {Q : γ → Prop}
    {D : δ → Prop} (name : String) {value : β} (h : codec.Yields P) (hvalue : P value)
    (hrest : rest.Yields Q D) :
    (Fields.defaulted name codec value rest).Yields (fun a => P a.1 ∧ Q a.2)
      fun d => (∀ b ∈ d.1, P b) ∧ D d.2 := by
  refine .cons h ?_ hrest
  rintro b (hb | hb)
  · cases hb
  · cases hb
    exact hvalue

theorem Yields.optional {codec : Codec β} {rest : Fields γ δ} {P : β → Prop} {Q : γ → Prop}
    {D : δ → Prop} (name : String) (h : codec.Yields P) (hrest : rest.Yields Q D) :
    (Fields.optional name codec rest).Yields (fun a => (∀ b ∈ a.1, P b) ∧ Q a.2)
      fun d => (∀ o ∈ d.1, ∀ b ∈ o, P b) ∧ D d.2 := by
  refine .cons (f := ⟨name, codec.option, .allowed none⟩) h.option ?_ hrest
  rintro o (ho | ho)
  · cases ho
    nofun
  · cases ho

theorem Yields.read {fields : Fields α δ} {P : α → Prop} {D : δ → Prop} (h : fields.Yields P D)
    (what : String) {depth : Nat} {cs rest : List Char} {a : α}
    (hread : fields.read what depth cs = .ok (a, rest)) : P a := by
  have hrecord : (Codec.record what fields id id).Yields P := .record what h fun _ ha => ha
  refine @hrecord depth cs a rest ?_
  simp only [Codec.record, hread]
  rfl

theorem Yields.takeKept {fields : Fields α δ} {P : α → Prop} {D : δ → Prop} (h : fields.Yields P D)
    {depth : Nat} {kept : List Kept} {draft draft' : δ} (hdraft : D draft)
    (hread : fields.takeKept depth kept draft = .ok draft') : D draft' := by
  induction kept generalizing draft with
  | nil =>
      cases hread
      exact hdraft
  | cons k ks ih =>
      obtain ⟨read, hmember, hread⟩ := bind_eq_ok.1 hread
      split at hread
      · exact ih hdraft hread
      · obtain ⟨p, hp, hread⟩ := bind_eq_ok.1 hread
        exact ih (h.member hdraft hmember hp) hread

theorem Yields.ofKept {fields : Fields α δ} {P : α → Prop} {D : δ → Prop} (h : fields.Yields P D)
    {depth : Nat} {kept : List Kept} {a : α} (hread : fields.ofKept depth kept = .ok a) : P a := by
  obtain ⟨draft, hdraft, hread⟩ := bind_eq_ok.1 hread
  exact h.complete (h.takeKept h.blank hdraft) hread

end Fields

theorem Codec.Yields.merged {first : Fields α δ} {second : Fields β ε} {own : Fields γ ζ}
    {P : α → Prop} {D : δ → Prop} {Q : β → Prop} {E : ε → Prop} (what : String)
    (hfirst : first.Yields P D) (hsecond : second.Yields Q E) :
    (Codec.merged what first second own).Yields fun a => P a.1 ∧ Q a.2.1 := by
  intro depth cs a rest hread
  simp only [Codec.merged] at hread
  split at hread
  · split at hread
    · cases hread
    obtain ⟨known, -, hread⟩ := bind_eq_ok.1 hread
    obtain ⟨a', ha, hread⟩ := bind_eq_ok.1 hread
    obtain ⟨b, hb, hread⟩ := bind_eq_ok.1 hread
    obtain ⟨c, -, hread⟩ := bind_eq_ok.1 hread
    cases hread
    exact ⟨hfirst.ofKept ha, hsecond.ofKept hb⟩
  · obtain ⟨head, -, hread⟩ := bind_eq_ok.1 hread
    cases hread

/-- Whatever a case of a union stands for has the property. -/
structure Variant.Yields (v : Variant β) (P : β → Prop) : Prop where
  bare : ∀ b, v.bare = .ok b → P b
  content : ∀ {depth cs b rest}, v.content depth cs = .ok (b, rest) → P b

namespace Variant

theorem Yields.around {codec : Codec α} {P : α → Prop} {Q : β → Prop} {wrap : α → β}
    (name : String) (h : codec.Yields P) (hwrap : ∀ a, P a → Q (wrap a)) :
    (Variant.around name codec wrap).Yields Q where
  bare := nofun
  content hread := by
    obtain ⟨a, ha, rfl⟩ := Codec.map_wrap_eq_ok hread
    exact hwrap a (h ha)

theorem Yields.withFields {fields : Fields α δ} {P : α → Prop} {D : δ → Prop} {Q : β → Prop}
    {make : α → β} (name what : String) (h : fields.Yields P D) (hmake : ∀ a, P a → Q (make a)) :
    (Variant.withFields name what fields make).Yields Q where
  bare := nofun
  content hread := by
    obtain ⟨a, ha, rfl⟩ := Codec.map_wrap_eq_ok hread
    exact hmake a (h.read _ ha)

theorem mem_of_named {variants : List (Variant β)} {name : String} {v : Variant β}
    (h : named variants name = .ok v) : v ∈ variants := by
  rw [named] at h
  split at h
  · rename_i hfind
    cases h
    exact List.mem_of_find?_eq_some hfind
  · cases h

end Variant

theorem Codec.Yields.tagged {variants : List (Variant β)} {write : β → List Char} {P : β → Prop}
    (h : ∀ v ∈ variants, v.Yields P) : (Codec.tagged variants write).Yields P := by
  intro depth cs b rest hread
  simp only [Codec.tagged, Variant.read] at hread
  split at hread
  · cases hread
  · obtain ⟨p, -, hread⟩ := bind_eq_ok.1 hread
    obtain ⟨v, hv, hread⟩ := bind_eq_ok.1 hread
    obtain ⟨b', hb', hread⟩ := bind_eq_ok.1 hread
    cases hread
    exact (h v (Variant.mem_of_named hv)).bare _ hb'
  · split at hread
    · cases hread
    split at hread
    · cases hread
    · obtain ⟨p, -, hread⟩ := bind_eq_ok.1 hread
      obtain ⟨v, hv, hread⟩ := bind_eq_ok.1 hread
      obtain ⟨cs', -, hread⟩ := bind_eq_ok.1 hread
      obtain ⟨p', hb', hread⟩ := bind_eq_ok.1 hread
      split at hread
      · cases hread
      · cases hread
        exact (h v (Variant.mem_of_named hv)).content hb'
      · cases hread
    · cases hread
  · cases hread

end SignalEngine.Json
