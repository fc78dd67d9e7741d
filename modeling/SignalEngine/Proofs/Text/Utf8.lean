import Mathlib.Tactic.Common
import SignalEngine.Text.Utf8

namespace SignalEngine.Text

section Step

variable {position : Nat} {chars : List Char}

theorem toNat_byte {n : Nat} (h : n < 256) : (UInt8.ofNat n).toNat = n :=
  UInt8.toNat_ofNat_of_lt' h

theorem step_ascii {b : Nat} (h : b < 0x80) :
    Decoder.step ⟨position, none, chars⟩ (UInt8.ofNat b) =
      .ok ⟨position + 1, none, Char.ofNat b :: chars⟩ := by
  have hopening : opening? b = some ⟨b, 0, 0x80, 0xBF⟩ := by
    rw [opening?, if_pos h]
  simp only [Decoder.step, toNat_byte (Nat.lt_trans h (by decide)), hopening, if_true]

theorem step_opening {b : Nat} {o : Opening} (hb : b < 256) (h : opening? b = some o)
    (hmissing : o.missing ≠ 0) :
    Decoder.step ⟨position, none, chars⟩ (UInt8.ofNat b) =
      .ok ⟨position + 1, some ⟨position, 1, o⟩, chars⟩ := by
  simp only [Decoder.step, toNat_byte hb, h, if_neg hmissing]

variable {p : Partial} {x : Nat}

theorem step_last (hx : x < 64) (hlow : p.rest.low ≤ x + 128) (hhigh : x + 128 ≤ p.rest.high)
    (hmissing : p.rest.missing = 1) :
    Decoder.step ⟨position, some p, chars⟩ (UInt8.ofNat (x + 128)) =
      .ok ⟨position + 1, none, Char.ofNat (p.rest.value * 64 + x) :: chars⟩ := by
  simp only [Decoder.step, toNat_byte (n := x + 128) (by omega), if_pos (And.intro hlow hhigh),
    if_pos (Nat.le_of_eq hmissing), Nat.add_sub_cancel]

theorem step_next (hx : x < 64) (hlow : p.rest.low ≤ x + 128) (hhigh : x + 128 ≤ p.rest.high)
    (hmissing : 1 < p.rest.missing) :
    Decoder.step ⟨position, some p, chars⟩ (UInt8.ofNat (x + 128)) =
      .ok ⟨position + 1, some ⟨p.start, p.length + 1,
        ⟨p.rest.value * 64 + x, p.rest.missing - 1, 0x80, 0xBF⟩⟩, chars⟩ := by
  simp only [Decoder.step, toNat_byte (n := x + 128) (by omega), if_pos (And.intro hlow hhigh),
    if_neg (Nat.not_le.2 hmissing), Nat.add_sub_cancel]

end Step

theorem foldlM_cons_of_ok {α σ ε : Type} {f : σ → α → Except ε σ} {s t : σ} {a : α}
    (h : f s a = .ok t) (as : List α) : (a :: as).foldlM f s = as.foldlM f t := by
  rw [List.foldlM_cons, h]
  rfl

theorem utf8EncodeChar_eq (c : Char) : String.utf8EncodeChar c =
    if c.toNat ≤ 0x7F then [UInt8.ofNat c.toNat]
    else if c.toNat ≤ 0x7FF then
      [UInt8.ofNat (c.toNat / 64 % 32 + 192), UInt8.ofNat (c.toNat % 64 + 128)]
    else if c.toNat ≤ 0xFFFF then
      [UInt8.ofNat (c.toNat / 4096 % 16 + 224), UInt8.ofNat (c.toNat / 64 % 64 + 128),
        UInt8.ofNat (c.toNat % 64 + 128)]
    else
      [UInt8.ofNat (c.toNat / 262144 % 8 + 240), UInt8.ofNat (c.toNat / 4096 % 64 + 128),
        UInt8.ofNat (c.toNat / 64 % 64 + 128), UInt8.ofNat (c.toNat % 64 + 128)] :=
  rfl

section Characters

variable (position : Nat) (chars : List Char) {v : Nat}

theorem foldlM_two (hlow : 0x80 ≤ v) (hhigh : v ≤ 0x7FF) :
    [UInt8.ofNat (v / 64 % 32 + 192), UInt8.ofNat (v % 64 + 128)].foldlM Decoder.step
      ⟨position, none, chars⟩ = .ok ⟨position + 2, none, Char.ofNat v :: chars⟩ := by
  have hopen : opening? (v / 64 % 32 + 192) = some ⟨v / 64, 1, 0x80, 0xBF⟩ := by
    have hbyte : v / 64 % 32 + 192 - 0xC0 = v / 64 := by omega
    rw [opening?, if_neg (by omega), if_neg (by omega), if_pos (by omega), hbyte]
  rw [foldlM_cons_of_ok (step_opening (by omega) hopen Nat.one_ne_zero),
    foldlM_cons_of_ok (step_last (by omega) (by dsimp only; omega) (by dsimp only; omega) rfl)]
  have hvalue : v / 64 * 64 + v % 64 = v := by omega
  rw [hvalue]
  rfl

theorem foldlM_three (hlow : 0x7FF < v) (hhigh : v ≤ 0xFFFF) (hvalid : v < 0xD800 ∨ 0xDFFF < v) :
    [UInt8.ofNat (v / 4096 % 16 + 224), UInt8.ofNat (v / 64 % 64 + 128),
      UInt8.ofNat (v % 64 + 128)].foldlM Decoder.step
      ⟨position, none, chars⟩ = .ok ⟨position + 3, none, Char.ofNat v :: chars⟩ := by
  have hopen : opening? (v / 4096 % 16 + 224) = some ⟨v / 4096, 2,
      if v / 4096 = 0 then 0xA0 else 0x80, if v / 4096 = 13 then 0x9F else 0xBF⟩ := by
    have hbyte : v / 4096 % 16 + 224 - 0xE0 = v / 4096 := by omega
    rw [opening?, if_neg (by omega), if_neg (by omega), if_neg (by omega), if_pos (by omega), hbyte,
      if_congr (show v / 4096 % 16 + 224 = 0xE0 ↔ v / 4096 = 0 by omega) rfl rfl,
      if_congr (show v / 4096 % 16 + 224 = 0xED ↔ v / 4096 = 13 by omega) rfl rfl]
  rw [foldlM_cons_of_ok (step_opening (by omega) hopen (Nat.succ_ne_zero _)),
    foldlM_cons_of_ok (step_next (by omega) (by dsimp only; split <;> omega)
      (by dsimp only; split <;> omega) (by dsimp only; omega)),
    foldlM_cons_of_ok (step_last (by omega) (by dsimp only; omega) (by dsimp only; omega) rfl)]
  have hvalue : (v / 4096 * 64 + v / 64 % 64) * 64 + v % 64 = v := by omega
  rw [hvalue]
  rfl

theorem foldlM_four (hlow : 0xFFFF < v) (hhigh : v < 0x110000) :
    [UInt8.ofNat (v / 262144 % 8 + 240), UInt8.ofNat (v / 4096 % 64 + 128),
      UInt8.ofNat (v / 64 % 64 + 128), UInt8.ofNat (v % 64 + 128)].foldlM Decoder.step
      ⟨position, none, chars⟩ = .ok ⟨position + 4, none, Char.ofNat v :: chars⟩ := by
  have hopen : opening? (v / 262144 % 8 + 240) = some ⟨v / 262144, 3,
      if v / 262144 = 0 then 0x90 else 0x80, if v / 262144 = 4 then 0x8F else 0xBF⟩ := by
    have hbyte : v / 262144 % 8 + 240 - 0xF0 = v / 262144 := by omega
    rw [opening?, if_neg (by omega), if_neg (by omega), if_neg (by omega), if_neg (by omega),
      if_pos (by omega), hbyte,
      if_congr (show v / 262144 % 8 + 240 = 0xF0 ↔ v / 262144 = 0 by omega) rfl rfl,
      if_congr (show v / 262144 % 8 + 240 = 0xF4 ↔ v / 262144 = 4 by omega) rfl rfl]
  rw [foldlM_cons_of_ok (step_opening (by omega) hopen (Nat.succ_ne_zero _)),
    foldlM_cons_of_ok (step_next (by omega) (by dsimp only; split <;> omega)
      (by dsimp only; split <;> omega) (by dsimp only; omega)),
    foldlM_cons_of_ok (step_next (by omega) (by dsimp only; omega) (by dsimp only; omega)
      (by dsimp only; omega)),
    foldlM_cons_of_ok (step_last (by omega) (by dsimp only; omega) (by dsimp only; omega) rfl)]
  have hvalue : ((v / 262144 * 64 + v / 4096 % 64) * 64 + v / 64 % 64) * 64 + v % 64 = v := by omega
  rw [hvalue]
  rfl

theorem foldlM_utf8EncodeChar (c : Char) :
    ∃ next, (String.utf8EncodeChar c).foldlM Decoder.step ⟨position, none, chars⟩ =
      .ok ⟨next, none, c :: chars⟩ := by
  have hvalid : c.toNat < 0xD800 ∨ 0xDFFF < c.toNat ∧ c.toNat < 0x110000 := c.valid
  have hchar := Char.ofNat_toNat c
  rw [utf8EncodeChar_eq]
  split
  · refine ⟨position + 1, ?_⟩
    rw [foldlM_cons_of_ok (step_ascii (by omega))]
    exact congrArg (fun d => Except.ok (Decoder.mk (position + 1) none (d :: chars))) hchar
  split
  · have h := foldlM_two position chars (v := c.toNat) (by omega) (by omega)
    rw [hchar] at h
    exact ⟨_, h⟩
  split
  · have h := foldlM_three position chars (v := c.toNat) (by omega) (by omega) (by omega)
    rw [hchar] at h
    exact ⟨_, h⟩
  · have h := foldlM_four position chars (v := c.toNat) (by omega) (by omega)
    rw [hchar] at h
    exact ⟨_, h⟩

end Characters

theorem toUtf8_cons (c : Char) (cs : List Char) :
    toUtf8 (c :: cs) = String.utf8EncodeChar c ++ toUtf8 cs := rfl

theorem foldlM_toUtf8 (position : Nat) (chars cs : List Char) :
    ∃ next, (toUtf8 cs).foldlM Decoder.step ⟨position, none, chars⟩ =
      .ok ⟨next, none, cs.reverse ++ chars⟩ := by
  induction cs generalizing position chars with
  | nil => exact ⟨position, rfl⟩
  | cons c cs ih =>
      obtain ⟨middle, hfirst⟩ := foldlM_utf8EncodeChar position chars c
      obtain ⟨next, hrest⟩ := ih middle (c :: chars)
      refine ⟨next, ?_⟩
      rw [toUtf8_cons, List.foldlM_append, hfirst, List.reverse_cons, List.append_assoc]
      exact hrest

/-- The bytes of a text are decoded as the text. -/
theorem ofUtf8_toUtf8 (cs : List Char) : ofUtf8 (toUtf8 cs) = .ok cs := by
  obtain ⟨next, h⟩ := foldlM_toUtf8 0 [] cs
  rw [List.append_nil] at h
  rw [ofUtf8, Decoder.start, h]
  simp only [bind, Except.bind, List.reverse_reverse]
  rfl

theorem le_of_mem_utf8EncodeChar {c : Char} {n : Nat} (hc : n ≤ c.toNat) (hn : n ≤ 0x80) :
    ∀ b ∈ String.utf8EncodeChar c, n ≤ b.toNat := by
  rw [utf8EncodeChar_eq]
  have hvalid : c.toNat < 0xD800 ∨ 0xDFFF < c.toNat ∧ c.toNat < 0x110000 := c.valid
  have hbyte {m : Nat} (hm : m < 256) (hle : n ≤ m) : n ≤ (UInt8.ofNat m).toNat := by
    rwa [toNat_byte hm]
  split
  · exact List.forall_mem_singleton.2 (hbyte (by omega) hc)
  split
  · simp only [List.forall_mem_cons, List.not_mem_nil]
    exact ⟨hbyte (by omega) (by omega), hbyte (by omega) (by omega), nofun⟩
  split
  · simp only [List.forall_mem_cons, List.not_mem_nil]
    exact ⟨hbyte (by omega) (by omega), hbyte (by omega) (by omega),
      hbyte (by omega) (by omega), nofun⟩
  · simp only [List.forall_mem_cons, List.not_mem_nil]
    exact ⟨hbyte (by omega) (by omega), hbyte (by omega) (by omega), hbyte (by omega) (by omega),
      hbyte (by omega) (by omega), nofun⟩

end SignalEngine.Text
