import SignalEngine.Proofs.Json.Ranges
import SignalEngine.Proofs.Json.Skipping

/-!
Objects that hold the fields of several records against the records themselves. The members that are
not an object's own are kept and read later. Each record reads them where they stand and passes over
all others, and it comes to the same: whatever was kept or read as an own member can be passed over,
and a field ends where the value that was kept ends.
-/

namespace SignalEngine.Json

namespace Codec

/-- What the codec reads is a value of some kind, and no more of the text than that. -/
def ReadsValues (c : Codec α) : Prop :=
  ∀ ⦃depth cs a rest⦄, c.read depth cs = .ok (a, rest) → ∃ v, Value.read depth cs = .ok (v, rest)

theorem readsValues_scalar {c : Codec α} {accept : Lead → Except Error α}
    (hread : ∀ depth, c.read depth = scalar accept)
    (h : ∀ l a, accept l = .ok a → l ≠ .list ∧ l ≠ .object) : c.ReadsValues := by
  intro depth cs a rest hok
  rw [hread] at hok
  obtain ⟨p, hlead, hok⟩ := bind_eq_ok.1 hok
  obtain ⟨a', haccept, hok⟩ := bind_eq_ok.1 hok
  cases hok
  obtain ⟨hlist, hobject⟩ := h p.1 _ haccept
  exact Value.read_of_lead depth hlead hlist hobject

theorem readsValues_boolean : Codec.boolean.ReadsValues := by
  refine readsValues_scalar (fun _ => rfl) fun l b h => ?_
  cases l with
  | boolean value => exact ⟨nofun, nofun⟩
  | _ => cases h

theorem readsValues_real : Codec.real.ReadsValues := by
  refine readsValues_scalar (fun _ => rfl) fun l x h => ?_
  cases l with
  | integer value => exact ⟨nofun, nofun⟩
  | real value => exact ⟨nofun, nofun⟩
  | _ => cases h

theorem readsValues_integer (low high : Int) (name : String) :
    (Codec.integer low high name).ReadsValues := by
  refine readsValues_scalar (fun _ => rfl) fun l n h => ?_
  cases l with
  | integer value => exact ⟨nofun, nofun⟩
  | _ => cases h

theorem ReadsValues.map {c : Codec α} (h : c.ReadsValues) (wrap : α → β) (unwrap : β → α) :
    (c.map wrap unwrap).ReadsValues := by
  intro depth cs b rest hread
  obtain ⟨a, ha, rfl⟩ := map_wrap_eq_ok hread
  exact h ha

theorem readsValues_count : Codec.count.ReadsValues :=
  (readsValues_integer _ _ _).map _ _

end Codec

namespace Fields

def ReadValues : Fields α δ → Prop
  | .nil => True
  | .cons f rest => f.codec.ReadsValues ∧ rest.ReadValues

theorem ReadValues.member {fields : Fields α δ} (h : fields.ReadValues) {depth : Nat}
    {name : String} {draft draft' : δ} {read : Reader δ} {cs rest : List Char}
    (hmember : fields.member depth name draft = .ok (some read))
    (hread : read cs = .ok (draft', rest)) : ∃ v, Value.read depth cs = .ok (v, rest) := by
  induction fields generalizing rest with
  | nil => cases hmember
  | cons f fields ih =>
      obtain ⟨hf, hfields⟩ := h
      obtain ⟨b, draft⟩ := draft
      rw [Fields.member] at hmember
      split at hmember
      · split at hmember
        · cases hmember
        · cases hmember
          obtain ⟨p, hvalue, hp⟩ := map_eq_ok.1 hread
          cases hp
          exact hf hvalue
      · obtain ⟨found, hinner, hfound⟩ := map_eq_ok.1 hmember
        obtain ⟨inner, rfl, rfl⟩ := Option.map_eq_some_iff.1 hfound
        obtain ⟨p, hvalue, hp⟩ := map_eq_ok.1 hread
        cases hp
        exact ih hfields hinner hvalue

theorem name_mem_of_member {fields : Fields α δ} {depth : Nat} {name : String} {draft : δ}
    {read : Reader δ} (h : fields.member depth name draft = .ok (some read)) :
    name ∈ fields.names := by
  by_contra hname
  rw [member_eq_none hname] at h
  cases h

theorem memberOrSkip_of_notMem {fields : Fields α δ} {name : String} (h : name ∉ fields.names)
    (depth : Nat) (draft : δ) :
    fields.memberOrSkip depth name draft =
      .ok fun cs => (skipValue cs).map fun rest => (draft, rest) := by
  rw [memberOrSkip, member_eq_none h]
  rfl

/-- A field that is taken from a kept member can be read where the member stands, up to the end of
its value; a member that is no field can be passed over. -/
theorem exists_memberOrSkip_of_takeKept {fields : Fields α δ} (h : fields.ReadValues) {depth : Nat}
    {name : String} {cs rest : List Char} {v : Value} (hvalue : Value.read depth cs = .ok (v, rest))
    {ks : List Kept} {draft draft' : δ}
    (htake : fields.takeKept depth (⟨name, cs⟩ :: ks) draft = .ok draft') :
    ∃ read mid, fields.memberOrSkip depth name draft = .ok read ∧ read cs = .ok (mid, rest) ∧
      fields.takeKept depth ks mid = .ok draft' := by
  obtain ⟨found, hmember, htake⟩ := bind_eq_ok.1 htake
  cases found with
  | none =>
      refine ⟨_, draft, by rw [memberOrSkip, hmember]; rfl, ?_, htake⟩
      exact map_eq_ok.2 ⟨rest, skipValue_of_read hvalue, rfl⟩
  | some read =>
      obtain ⟨⟨mid, rest'⟩, hread, htake⟩ := bind_eq_ok.1 htake
      obtain ⟨v', hvalue'⟩ := h.member hmember hread
      rw [hvalue] at hvalue'
      cases hvalue'
      exact ⟨read, mid, fields.memberOrSkip_of_member depth name draft read hmember, hread, htake⟩

theorem membersFrom_step {member : String → σ → Except Error (Reader σ)} {key : String}
    {known known' : σ} {read : Reader σ} {first : Bool} {cs next value after : List Char}
    (hnext : nextKey first cs = .ok (some key, next)) (hmember : member key known = .ok read)
    (hcolon : colon next = .ok value) (hread : read value = .ok (known', after)) (c : Char)
    (bound : List Char) :
    membersFrom member (c :: bound) first known cs =
      membersFrom member bound false known' after := by
  simp only [membersFrom, bind, Except.bind, hnext, hmember, hcolon, hread]

/-- A record that reads the members of an object where they stand comes to the same draft as one
that takes its fields from what has been kept of them. -/
theorem membersFrom_memberOrSkip {fields : Fields α δ} {own : Fields γ ζ}
    (hfields : fields.ReadValues) (hown : own.ReadValues)
    (hdisjoint : ∀ name ∈ own.names, name ∉ fields.names) {depth : Nat} {bound : List Char}
    {first : Bool} {known known' : ζ × List Kept} {cs rest : List Char}
    (h : membersFrom (own.memberOrKeep depth) bound first known cs = .ok (known', rest)) :
    ∃ added, known'.2 = added ++ known.2 ∧ ∀ {draft draft'},
      fields.takeKept depth added.reverse draft = .ok draft' →
        membersFrom (fields.memberOrSkip depth) bound first draft cs = .ok (draft', rest) := by
  induction bound generalizing first known cs with
  | nil => cases h
  | cons c bound ih =>
      rw [membersFrom] at h
      obtain ⟨⟨key, next⟩, hnext, h⟩ := bind_eq_ok.1 h
      cases key with
      | none =>
          cases h
          refine ⟨[], rfl, fun htake => ?_⟩
          cases htake
          simp only [membersFrom, hnext, bind, Except.bind]
          rfl
      | some key =>
          obtain ⟨read, hmember, h⟩ := bind_eq_ok.1 h
          obtain ⟨value, hcolon, h⟩ := bind_eq_ok.1 h
          obtain ⟨⟨known₁, after⟩, hread, h⟩ := bind_eq_ok.1 h
          obtain ⟨added, hadded, hrun⟩ := ih h
          obtain ⟨found, hfound, hmember⟩ := bind_eq_ok.1 hmember
          cases found with
          | some inner =>
              -- an own member stays out of the kept ones and is no field of the record
              cases hmember
              obtain ⟨p, hinner, hp⟩ := map_eq_ok.1 hread
              cases hp
              refine ⟨added, hadded, fun htake => ?_⟩
              obtain ⟨v, hvalue⟩ := hown.member hfound hinner
              have hskip := memberOrSkip_of_notMem (hdisjoint key (name_mem_of_member hfound)) depth
              rw [membersFrom_step hnext (hskip _) hcolon
                (map_eq_ok.2 ⟨_, skipValue_of_read hvalue, rfl⟩)]
              exact hrun htake
          | none =>
              cases hmember
              obtain ⟨p, hvalue, hp⟩ := map_eq_ok.1 hread
              cases hp
              refine ⟨added ++ [⟨key, value⟩], by simp [hadded], fun htake => ?_⟩
              rw [List.reverse_append, List.reverse_singleton, List.singleton_append] at htake
              obtain ⟨read', mid, hmember', hread', htake⟩ :=
                exists_memberOrSkip_of_takeKept hfields hvalue htake
              rw [membersFrom_step hnext hmember' hcolon hread']
              exact hrun htake

theorem read_of_ofKept {fields : Fields α δ} {own : Fields γ ζ} (hfields : fields.ReadValues)
    (hown : own.ReadValues) (hdisjoint : ∀ name ∈ own.names, name ∉ fields.names) (what : String)
    {depth : Nat} {known : ζ × List Kept} {cs mid rest : List Char} {a : α}
    (hcs : skipSpaces cs = '\x7b' :: mid)
    (h : members (own.memberOrKeep depth) (own.blank, []) mid = .ok (known, rest))
    (ha : fields.ofKept depth known.2.reverse = .ok a) :
    fields.read what (depth + 1) cs = .ok (a, rest) := by
  obtain ⟨added, hadded, hrun⟩ := membersFrom_memberOrSkip hfields hown hdisjoint h
  obtain ⟨draft, htake, hcomplete⟩ := bind_eq_ok.1 ha
  rw [hadded, List.append_nil] at htake
  simp only [Fields.read, hcs, members, hrun htake, bind, Except.bind, hcomplete]
  rfl

end Fields

/-- A text that is read as an object of two records and more is read as either record, and as the
same one. -/
theorem Codec.read_of_merged {first : Fields α δ} {second : Fields β ε} {own : Fields γ ζ}
    (hfirst : first.ReadValues) (hsecond : second.ReadValues) (hown : own.ReadValues)
    (hdisjoint : ∀ name ∈ own.names, name ∉ first.names)
    (hdisjoint' : ∀ name ∈ own.names, name ∉ second.names) {what : String} {depth : Nat}
    {cs rest : List Char} {a : α} {b : β} {c : γ}
    (h : (Codec.merged what first second own).read depth cs = .ok ((a, b, c), rest))
    (what₁ what₂ : String) :
    first.read what₁ depth cs = .ok (a, rest) ∧ second.read what₂ depth cs = .ok (b, rest) := by
  simp only [Codec.merged] at h
  split at h
  · rename_i mid hcs
    cases depth with
    | zero => cases h
    | succ depth =>
        obtain ⟨⟨known, after⟩, hmembers, h⟩ := bind_eq_ok.1 h
        obtain ⟨a', ha, h⟩ := bind_eq_ok.1 h
        obtain ⟨b', hb, h⟩ := bind_eq_ok.1 h
        obtain ⟨c', -, h⟩ := bind_eq_ok.1 h
        cases h
        exact ⟨Fields.read_of_ofKept hfirst hown hdisjoint what₁ hcs hmembers ha,
          Fields.read_of_ofKept hsecond hown hdisjoint' what₂ hcs hmembers hb⟩
  · obtain ⟨p, -, h⟩ := bind_eq_ok.1 h
    cases h

end SignalEngine.Json
