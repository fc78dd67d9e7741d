import SignalEngine.Proofs.Json.Merged

namespace SignalEngine.Json

namespace Codec

/-- What is written of a value of the codec is a value of the other kind. -/
def Shows (c : Codec α) (a : α) (v : Value) : Prop :=
  ∀ depth ⦃rest⦄, Delimited rest → Value.read depth (c.write a ++ rest) = .ok (v, rest)

theorem shows_real {x : Float} (hx : x.isFinite = true) : Codec.real.Shows x (.real x) := by
  intro depth rest hrest
  have hwrite : Codec.real.write x = Number.wireText x := if_pos hx
  rw [hwrite, Value.read.eq_def]
  dsimp only
  rw [lead_wireText hx hrest]
  rfl

theorem shows_count {n : Nat} (hn : n < 2 ^ 64) : Codec.count.Shows n (.integer n) := by
  intro depth rest hrest
  have hwrite : Codec.count.write n = Number.intText (n : Int) := rfl
  have hlead := lead_intText (n : Int) hrest
  rw [numberLead_of_fits (by omega) (by omega)] at hlead
  rw [hwrite, Value.read.eq_def]
  dsimp only
  rw [hlead]
  rfl

theorem shows_boolean (b : Bool) : Codec.boolean.Shows b (.boolean b) := by
  intro depth rest _
  cases b <;> rw [Value.read.eq_def] <;> rfl

end Codec

def Shown (text : List Char) (member : String × Value) : Prop :=
  ∃ content, text = memberText member.1 content ∧
    ∀ depth ⦃rest⦄, Delimited rest → Value.read depth (content ++ rest) = .ok (member.2, rest)

def Fields.Shows (fields : Fields α δ) (a : α) (members : List (String × Value)) : Prop :=
  List.Forall₂ Shown (fields.memberTexts a) members

theorem Fields.Shows.cons {f : Field β} {rest : Fields γ δ} {b : β} {c : γ} {v : Value}
    {members : List (String × Value)} (hf : f.codec.Shows b v) (hrest : rest.Shows c members) :
    (Fields.cons f rest).Shows (b, c) ((f.name, v) :: members) :=
  List.Forall₂.cons ⟨_, rfl, hf⟩ hrest

def Value.member (depth : Nat) (key : String) (known : List (String × Value)) :
    Except Error (Reader (List (String × Value))) :=
  .ok fun cs => (Value.read depth cs).map fun (v, rest) => ((key, v) :: known, rest)

theorem Value.read_object (depth : Nat) (cs : List Char) :
    Value.read (depth + 1) ('\x7b' :: cs) =
      (members (Value.member depth) [] cs).map fun (ms, rest) => (.object ms.reverse, rest) := by
  rw [Value.read.eq_def]
  have hmember : Value.member depth = fun key (known : List (String × Value)) => .ok fun cs => do
      let (v, rest) ← Value.read depth cs
      return ((key, v) :: known, rest) := by
    funext key known
    refine congrArg Except.ok (funext fun cs => ?_)
    cases Value.read depth cs <;> rfl
  rw [hmember]
  simp only [lead]
  rw [skipSpaces_cons rfl]
  simp only [bind, Except.bind]
  generalize members _ _ _ = read
  cases read <;> rfl

theorem membersFrom_shown {texts : List (List Char)} {ms : List (String × Value)}
    (h : List.Forall₂ Shown texts ms) (depth : Nat) {bound : List Char}
    (hbound : texts.length < bound.length) (first : Bool) (known : List (String × Value))
    (rest : List Char) :
    membersFrom (Value.member depth) bound first known (joined first texts ++ '\x7d' :: rest) =
      .ok (ms.reverse ++ known, rest) := by
  induction h generalizing bound first known with
  | nil =>
      cases bound with
      | nil => exact absurd hbound (Nat.not_lt_zero _)
      | cons head bound => exact membersFrom_nil _ head bound first known rest
  | @cons text m texts ms hshown _ ih =>
      obtain ⟨content, rfl, hcontent⟩ := hshown
      cases bound with
      | nil => exact absurd hbound (Nat.not_lt_zero _)
      | cons head bound =>
          rw [membersFrom_cons_of_ok _ rfl]
          simp only [bind, Except.bind, hcontent depth (delimited_joined texts rest), Except.map]
          rw [ih (Nat.lt_of_succ_lt_succ hbound), List.reverse_cons, List.append_assoc]
          rfl

theorem read_objectText {texts : List (List Char)} {ms : List (String × Value)}
    (h : List.Forall₂ Shown texts ms) (depth : Nat) (rest : List Char) :
    Value.read (depth + 1) (objectText texts ++ rest) = .ok (.object ms, rest) := by
  rw [objectText_append, Value.read_object, members, membersFrom_shown h]
  · simp [Except.map]
  · exact Nat.lt_succ_of_le (length_le_joined true texts rest)

theorem Codec.read_encode {c : Codec α} {a : α} {texts : List (List Char)}
    {ms : List (String × Value)} (hwrite : c.write a = objectText texts)
    (h : List.Forall₂ Shown texts ms) :
    Value.read maxDepth (c.encode a).toList = .ok (.object ms, []) := by
  rw [Codec.toList_encode, hwrite, ← List.append_nil (objectText texts)]
  exact read_objectText h _ []

end SignalEngine.Json
