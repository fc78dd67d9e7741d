import SignalEngine.Proofs.Json.Record

namespace SignalEngine.Json

namespace Variant

def ReadsBack (v : Variant β) (n : Nat) (content : List Char) (b : β) : Prop :=
  ∀ ⦃depth rest⦄, n ≤ depth → Delimited rest → v.content depth (content ++ rest) = .ok (b, rest)

theorem ReadsBack.around {codec : Codec α} {n : Nat} {a : α} (name : String) (wrap : α → β)
    (h : codec.ReadsBack n a) :
    (Variant.around name codec wrap).ReadsBack n (codec.write a) (wrap a) := by
  intro depth rest hd hrest
  simp only [Variant.around, h hd hrest]
  rfl

theorem ReadsBack.withFields {fields : Fields α δ} {n : Nat} {a : α} {p : Prop}
    (name what : String) (make : α → β) (h : fields.ReadsBackIff n a p)
    (hnames : fields.names.Nodup) (hp : p) :
    (Variant.withFields name what fields make).ReadsBack (n + 1)
      (objectText (fields.memberTexts a)) (make a) := by
  have hrecord : (Codec.record ("struct variant " ++ what) fields make fun _ => a).ReadsBackIff
    (n + 1) (make a) p := .record _ h hnames rfl
  exact hrecord.readsBack hp

end Variant

theorem colon_cons (rest : List Char) : colon (':' :: rest) = .ok rest := by
  rw [colon, skipSpaces_cons rfl]
  rfl

/-- A value is read back when the content of its case is. -/
theorem Codec.readsBack_tagged {variants : List (Variant β)} {write : β → List Char} {b : β}
    {v : Variant β} {n : Nat} {content : List Char} (h : v.ReadsBack n content b)
    (hnamed : Variant.named variants v.name = .ok v) (hwrite : write b = taggedText v.name content) :
    (Codec.tagged variants write).ReadsBack (n + 1) b := by
  intro depth rest hd hrest
  obtain ⟨depth, rfl⟩ : ∃ d, depth = d + 1 := ⟨depth - 1, by omega⟩
  have htext : write b ++ rest =
      '\x7b' :: (stringText v.name ++ ':' :: (content ++ '\x7d' :: rest)) := by
    rw [hwrite, taggedText, objectText]
    simp [separated]
  -- what stands around the content is passed over from left to right
  have hcontent := h (show n ≤ depth by omega) (delimited_brace rest)
  simp only [Codec.tagged, htext, Variant.read]
  rw [skipSpaces_cons rfl]
  simp only [stringText_append]
  rw [skipSpaces_cons rfl]
  simp only [stringBody_append, bind, Except.bind, hnamed, colon_cons, hcontent]
  rw [skipSpaces_cons rfl]
  rfl

end SignalEngine.Json
