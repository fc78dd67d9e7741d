import SignalEngine.Proofs.Json.Printable
import SignalEngine.Proofs.Json.Soundness
import SignalEngine.Proofs.Text.Utf8
import SignalEngine.Session.Lines

/-!
Lines that have gone out come in again as the messages that they were. A message is written without
control characters, so that its line ends where the next begins, and in braces, so that it is not
blank.
-/

namespace SignalEngine.Lines

open Json (Codec Printable)

theorem split_cons (b : UInt8) (bytes : List UInt8) : split (b :: bytes) = addByte b (split bytes) :=
  rfl

theorem split_line {line : List UInt8} (h : 10 ∉ line) (rest : List UInt8) :
    split (line ++ 10 :: rest) = (line ++ [10]) :: split rest := by
  induction line with
  | nil => rfl
  | cons b line ih =>
      obtain ⟨hb, hline⟩ := not_or.1 (List.mem_cons.not.1 h)
      rw [List.cons_append, split_cons, ih hline, addByte, if_neg (Ne.symm hb), List.cons_append]

theorem notMem_toUtf8 {cs : List Char} (h : Printable cs) : 10 ∉ Text.toUtf8 cs := by
  intro hmem
  obtain ⟨c, hc, hb⟩ := List.mem_flatMap.1 hmem
  exact absurd (Text.le_of_mem_utf8EncodeChar (h c hc) (by decide) 10 hb) (by decide)

def line (text : String) : List UInt8 :=
  Text.toUtf8 text.toList ++ [10]

theorem split_written {texts : List String} (h : ∀ text ∈ texts, Printable text.toList) :
    split (written texts) = texts.map line := by
  induction texts with
  | nil => rfl
  | cons text texts ih =>
      obtain ⟨htext, htexts⟩ := List.forall_mem_cons.1 h
      have hwritten : written (text :: texts) = Text.toUtf8 text.toList ++ 10 :: written texts := by
        rw [written, List.flatMap_cons, List.append_assoc]
        rfl
      rw [hwritten, split_line (notMem_toUtf8 htext), ih htexts]
      rfl

theorem yields_items {codec : Codec ι} {P : ι → Prop} (h : codec.Yields P) (bytes : List UInt8) :
    ∀ m, .message m ∈ items codec bytes → P m := by
  intro m hm
  obtain ⟨line, -, hitem⟩ := List.mem_filterMap.1 hm
  simp only [item?] at hitem
  split at hitem
  · cases hitem
  split at hitem
  · cases hitem
  split at hitem
  · rename_i hdecode
    cases hitem
    exact h.decode hdecode
  · cases hitem

theorem content_line {cs : List Char} (h : Printable cs) : content (cs ++ ['\n']) = cs := by
  -- a carriage return at the end of the text would be taken for a part of the line end
  have hreturn : ∀ rest, cs.reverse ≠ '\r' :: rest := by
    intro rest hrest
    have hmem : '\r' ∈ cs := List.mem_reverse.1 (hrest ▸ List.mem_cons_self)
    exact absurd (h '\r' hmem) (by decide)
  rw [content, List.reverse_append, List.reverse_singleton, List.singleton_append]
  split
  · rename_i rest heq
    exact absurd (List.tail_eq_of_cons_eq heq) (hreturn rest)
  · rename_i heq
    rw [← List.tail_eq_of_cons_eq heq, List.reverse_reverse]
  · rename_i hnone
    exact absurd rfl (hnone cs.reverse)

/-- A message that a line can hold: it is written in braces and without control characters, and
read back. -/
structure Holds (codec : Codec α) (a : α) : Prop where
  printable : Printable (codec.write a)
  braced : ∃ rest, codec.write a = '\x7b' :: rest
  decode : codec.decode (codec.encode a) = .ok a

theorem item?_line {codec : Codec ι} {m : ι} (h : Holds codec m) :
    item? codec (line (codec.encode m)) = some (.message m) := by
  have hbytes : line (codec.encode m) = Text.toUtf8 (codec.write m ++ ['\n']) := by
    rw [line, Codec.toList_encode, Text.toUtf8, Text.toUtf8, List.flatMap_append]
    rfl
  have hblank : (codec.write m).all Text.isBlankChar = false := by
    obtain ⟨rest, hrest⟩ := h.braced
    rw [hrest, List.all_cons]
    rfl
  have hdecode := h.decode
  rw [Codec.encode] at hdecode
  rw [hbytes, item?, Text.ofUtf8_toUtf8]
  simp only [content_line h.printable, hblank, hdecode]
  rfl

/-- What is read from the bytes: each line brings in one of the messages, and all lines bring in all
of them in order. -/
structure Carries (codec : Codec ο) (bytes : List UInt8) (messages : List ο) : Prop where
  each : (split bytes).map (item? codec) = messages.map fun m => some (.message m)
  all : items codec bytes = messages.map .message

section Messages

variable {codec : Codec ο} {messages : List ο}

theorem map_item?_written (h : ∀ m ∈ messages, Holds codec m) :
    (split (written (texts codec messages))).map (item? codec) =
      messages.map fun m => some (.message m) := by
  have hprintable : ∀ text ∈ texts codec messages, Printable text.toList := by
    refine List.forall_mem_map.2 fun m hm => ?_
    rw [Codec.toList_encode]
    exact (h m hm).printable
  rw [split_written hprintable, texts, List.map_map, List.map_map]
  exact List.map_congr_left fun m hm => item?_line (h m hm)

theorem carries_written (h : ∀ m ∈ messages, Holds codec m) :
    Carries codec (written (texts codec messages)) messages := by
  have heach := map_item?_written h
  refine ⟨heach, ?_⟩
  have hall := congrArg (List.filterMap id) heach
  rw [List.filterMap_map, List.filterMap_map] at hall
  rw [items]
  exact hall.trans (by rw [← List.filterMap_eq_map]; rfl)

end Messages

end SignalEngine.Lines
