import SignalEngine.Checkpoint
import SignalEngine.Proofs.Json.Merged
import SignalEngine.Proofs.Json.Soundness
import SignalEngine.Window

/-!
States that can be saved. A checkpoint loses nothing if all plain numbers of the state are finite;
those that are written as words when they are not finite, the slots of windows among them, do not
matter.
-/

namespace SignalEngine

open Json (Codec)

/-- The numbers that a state is made of, those of nested components included. Counts are unsigned
words and codes are signed ones of 32 bits. -/
class Recorded (σ : Type) where
  /-- The numbers that are saved in their plain form. -/
  plain : σ → List Float
  /-- The counts and lengths. -/
  counts : σ → List Nat
  /-- The small integers with a sign. -/
  codes : σ → List Int := fun _ => []

/-- All plain numbers are finite, and all integers are those of their machine words. -/
structure Savable [Recorded σ] (s : σ) : Prop where
  finite : ∀ x ∈ Recorded.plain s, x.isFinite = true
  counted : ∀ n ∈ Recorded.counts s, n < 2 ^ 64
  coded : ∀ n ∈ Recorded.codes s, -2 ^ 31 ≤ n ∧ n < 2 ^ 31

theorem savable_iff [Recorded σ] {s : σ} :
    Savable s ↔ (∀ x ∈ Recorded.plain s, x.isFinite = true) ∧
      (∀ n ∈ Recorded.counts s, n < 2 ^ 64) ∧
      ∀ n ∈ Recorded.codes s, -2 ^ 31 ≤ n ∧ n < 2 ^ 31 :=
  ⟨fun h => ⟨h.finite, h.counted, h.coded⟩, fun h => ⟨h.1, h.2.1, h.2.2⟩⟩

theorem Window.readsBackIff_codec {w : Window} (h : 0 < w.capacity) :
    Window.codec.ReadsBackIff 1 w True := by
  apply Codec.ReadsBackIff.of_readsBack
  intro depth rest hd hrest
  have hlist : (Codec.list .lossless).ReadsBack 1 w.toList := Codec.readsBack_list fun x _ =>
    ⟨(Codec.readsBackIff_lossless x).readsBack (by trivial), Codec.opens_lossless x⟩
  have hne : w.toList.isEmpty = false := by
    rw [List.isEmpty_eq_false_iff, ← List.length_pos_iff, Window.toList, Array.length_toList]
    exact h
  simp only [Window.codec, hlist hd hrest, bind, Except.bind, hne]
  rw [if_neg Bool.false_ne_true]
  rfl

theorem Window.yields_codec : Window.codec.Yields fun w => 0 < w.capacity := by
  intro depth cs w rest hread
  simp only [Window.codec, bind, Except.bind] at hread
  split at hread
  · cases hread
  rename_i p _
  split at hread
  · cases hread
  · rename_i hne
    cases hread
    rw [Bool.not_eq_true, List.isEmpty_eq_false_iff, ← List.length_pos_iff] at hne
    simpa [Window.capacity] using hne

theorem readRecord_encode {codec : Codec α} {n : Nat} {a : α} {p : Prop} (kind : String)
    (h : codec.ReadsBackIff n a p) (hn : n ≤ Json.maxDepth) (hp : p) :
    readRecord kind codec (codec.encode a) = .ok a := by
  rw [readRecord, Codec.decode_encode (h.readsBack hp) hn]
  rfl

theorem readRecord_encode_error {codec : Codec α} {n : Nat} {a : α} {p : Prop} (kind : String)
    (h : codec.ReadsBackIff n a p) (hn : n ≤ Json.maxDepth) (hp : ¬ p) :
    ∃ e, readRecord kind codec (codec.encode a) = .error e := by
  obtain ⟨e, he⟩ := Codec.decode_encode_error (h.refuses hp) hn
  exact ⟨_, by rw [readRecord, he]; rfl⟩

/-- A record that is read out of its own text could be saved, and nothing of it is lost. -/
theorem eq_of_readRecord_encode {codec : Codec α} {kind : String} {n : Nat} {a b : α} {p : Prop}
    (h : codec.ReadsBackIff n a p) (hn : n ≤ Json.maxDepth)
    (hread : readRecord kind codec (codec.encode a) = .ok b) : p ∧ b = a := by
  by_cases hp : p
  · rw [readRecord_encode kind h hn hp] at hread
    exact ⟨hp, (Except.ok.inj hread).symm⟩
  · obtain ⟨e, he⟩ := readRecord_encode_error kind h hn hp
    rw [he] at hread
    cases hread

theorem eq_of_encode_eq {codec : Codec α} {n : Nat} {a b : α} {p q : Prop}
    (ha : codec.ReadsBackIff n a p) (hn : n ≤ Json.maxDepth) (hp : p)
    (htext : codec.encode b = codec.encode a) (hb : codec.ReadsBackIff n b q) : q ∧ b = a := by
  have hread := Codec.decode_encode (ha.readsBack hp) hn
  rw [← htext] at hread
  by_cases hq : q
  · rw [Codec.decode_encode (hb.readsBack hq) hn] at hread
    exact ⟨hq, Except.ok.inj hread⟩
  · obtain ⟨e, he⟩ := Codec.decode_encode_error (hb.refuses hq) hn
    rw [he] at hread
    cases hread

theorem decode_of_readRecord {codec : Codec α} {kind text : String} {a : α}
    (h : readRecord kind codec text = .ok a) : codec.decode text = .ok a := by
  rw [readRecord] at h
  match hdecode : codec.decode text with
  | .ok b =>
      rw [hdecode] at h
      cases h
      rfl
  | .error e =>
      rw [hdecode] at h
      cases h

/-- A component that loads what it has saved. `Sound` is what every state has that the component can
be in, and a target has to fit the state that is loaded into it. -/
class Faithful (σ : Type) [Persistent σ] [Recorded σ] where
  Sound : σ → Prop
  Fits : σ → σ → Prop := fun _ _ => True
  /-- A price that may be missing is a number where it is there. -/
  Priced : σ → Prop := fun _ => True
  /-- A state that can be saved is loaded into any target, whatever the target has seen. -/
  load_checkpoint {t s : σ} : Sound s → Fits t s → Savable s →
    Persistent.load t (checkpoint s) = .ok s
  /-- A state that comes out of its own checkpoint could be saved. -/
  savable_of_load {t s s' : σ} : Sound t → Savable t → Sound s → Priced s → Fits t s →
    Persistent.load t (checkpoint s) = .ok s' → checkpoint s' = checkpoint s → Savable s
  /-- Whatever is loaded is a state that the component can be in. -/
  sound_of_load {t s : σ} {text : String} : Sound t → Persistent.load t text = .ok s → Sound s

export Faithful (Sound Priced)

section Restoring

variable {σ : Type} [Persistent σ] [Recorded σ] [Faithful σ]

theorem restore_of_sound {t s : σ} (hs : Sound s) (hfits : Faithful.Fits t s) (h : Savable s) :
    restore t (checkpoint s) = ⟨s, none⟩ :=
  restore_of_load_ok (Faithful.load_checkpoint hs hfits h)

theorem sound_restore {s : σ} (h : Sound s) (text : String) : Sound (restore s text).state := by
  match hload : Persistent.load s text with
  | .ok t =>
      rw [restore_of_load_ok hload]
      exact Faithful.sound_of_load h hload
  | .error e =>
      rw [restore_of_load_error hload]
      exact h

end Restoring

section OfCodec

theorem one_le_maxDepth : 1 ≤ Json.maxDepth := by decide

theorem two_le_maxDepth : 2 ≤ Json.maxDepth := by decide

variable {σ : Type} [Persistent σ] [Recorded σ] {n : Nat}

/-- The checkpoint is the record of the state. -/
structure SavedAs (kind : String) (codec : Codec σ) : Prop where
  checkpoint_eq (s : σ) : checkpoint s = codec.encode s
  load_eq (t : σ) (text : String) : Persistent.load t text = readRecord kind codec text

structure SavedOrKept (kind : String) (codec : Codec σ) : Prop where
  checkpoint_eq (s : σ) : checkpoint s = codec.encode s
  load_ok {t : σ} {text : String} {new : σ} : readRecord kind codec text = .ok new →
    Persistent.load t text = .ok new
  load_error {t : σ} {text : String} {e : CheckpointError} : readRecord kind codec text = .error e →
    Persistent.load t text = .ok t

@[reducible] def Faithful.ofCodec (Sound : σ → Prop) (kind : String) (codec : Codec σ)
    (hcheckpoint : ∀ s : σ, checkpoint s = codec.encode s)
    (hload : ∀ (t : σ) text, Persistent.load t text = readRecord kind codec text)
    (hreads : ∀ {s}, Sound s → codec.ReadsBackIff n s (Savable s)) (hn : n ≤ Json.maxDepth)
    (hyields : codec.Yields Sound) : Faithful σ where
  Sound := Sound
  load_checkpoint hs _ hsave := by
    rw [hload, hcheckpoint, readRecord_encode _ (hreads hs) hn hsave]
  savable_of_load _ _ hs _ _ h _ := by
    rw [hload, hcheckpoint] at h
    exact (eq_of_readRecord_encode (hreads hs) hn h).1
  sound_of_load _ h := by
    rw [hload] at h
    exact hyields.decode (decode_of_readRecord h)

/-- A component whose checkpoint is its record, and which keeps its state when a text is malformed.
It takes the comparison of the texts to tell that something was lost. -/
@[reducible] def Faithful.ofCodecOrKeep (Sound : σ → Prop) (kind : String) (codec : Codec σ)
    (hcheckpoint : ∀ s : σ, checkpoint s = codec.encode s)
    (hok : ∀ {t : σ} {text new}, readRecord kind codec text = .ok new →
      Persistent.load t text = .ok new)
    (hkeep : ∀ {t : σ} {text e}, readRecord kind codec text = .error e →
      Persistent.load t text = .ok t)
    (hreads : ∀ {s}, Sound s → codec.ReadsBackIff n s (Savable s)) (hn : n ≤ Json.maxDepth)
    (hyields : codec.Yields Sound) : Faithful σ where
  Sound := Sound
  load_checkpoint hs _ hsave := by
    rw [hcheckpoint]
    exact hok (readRecord_encode _ (hreads hs) hn hsave)
  savable_of_load ht htsave hs _ _ h htext := by
    by_contra hsave
    obtain ⟨e, he⟩ := readRecord_encode_error kind (hreads hs) hn hsave
    have hread := readRecord_encode kind (hreads ht) hn htsave
    rw [hcheckpoint, hkeep he] at h
    cases h
    rw [hcheckpoint, hcheckpoint] at htext
    rw [htext, he] at hread
    cases hread
  sound_of_load {t s text} ht h := by
    match hread : readRecord kind codec text with
    | .ok new =>
        rw [hok hread] at h
        cases h
        exact hyields.decode (decode_of_readRecord hread)
    | .error e =>
        rw [hkeep hread] at h
        cases h
        exact ht

end OfCodec

/-- A component that is one case of another: it is saved and loaded as itself. -/
structure Wraps {σ τ : Type} [Persistent σ] [Recorded σ] [Persistent τ] [Recorded τ]
    (wrap : σ → τ) :
    Prop where
  checkpoint_eq : ∀ s, checkpoint (wrap s) = checkpoint s
  load_eq : ∀ t text, Persistent.load (wrap t) text = (Persistent.load t text).map wrap
  savable_iff : ∀ s, Savable (wrap s) ↔ Savable s

namespace Wraps

variable {σ τ : Type} [Persistent σ] [Recorded σ] [Persistent τ] [Recorded τ] {wrap : σ → τ}

theorem of_eq (hcheckpoint : ∀ s, checkpoint (wrap s) = checkpoint s)
    (hload : ∀ t text, Persistent.load (wrap t) text = (Persistent.load t text).map wrap)
    (hplain : ∀ s, Recorded.plain (wrap s) = Recorded.plain s)
    (hcounts : ∀ s, Recorded.counts (wrap s) = Recorded.counts s)
    (hcodes : ∀ s, Recorded.codes (wrap s) = Recorded.codes s) : Wraps wrap where
  checkpoint_eq := hcheckpoint
  load_eq := hload
  savable_iff s := by
    rw [SignalEngine.savable_iff, SignalEngine.savable_iff, hplain, hcounts, hcodes]

variable [Faithful σ]

theorem load_checkpoint (h : Wraps wrap) {t s : σ} (hs : Sound s) (hfits : Faithful.Fits t s)
    (hsave : Savable (wrap s)) : Persistent.load (wrap t) (checkpoint (wrap s)) = .ok (wrap s) := by
  rw [h.load_eq, h.checkpoint_eq, Faithful.load_checkpoint hs hfits ((h.savable_iff s).1 hsave)]
  rfl

theorem savable_of_load (h : Wraps wrap) {t s : σ} {s' : τ} (ht : Sound t)
    (htsave : Savable (wrap t))
    (hs : Sound s) (hprice : Priced s) (hfits : Faithful.Fits t s)
    (hload : Persistent.load (wrap t) (checkpoint (wrap s)) = .ok s')
    (htext : checkpoint s' = checkpoint (wrap s)) : Savable (wrap s) := by
  rw [h.load_eq, h.checkpoint_eq] at hload
  obtain ⟨s', hs', rfl⟩ := map_eq_ok.1 hload
  rw [h.checkpoint_eq, h.checkpoint_eq] at htext
  have htsave := (h.savable_iff t).1 htsave
  exact (h.savable_iff s).2 (Faithful.savable_of_load ht htsave hs hprice hfits hs' htext)

theorem sound_of_load (h : Wraps wrap) {t : σ} {s : τ} (ht : Sound t) {text : String}
    (hload : Persistent.load (wrap t) text = .ok s) : ∃ s', s = wrap s' ∧ Sound s' := by
  rw [h.load_eq] at hload
  obtain ⟨s', hs', rfl⟩ := map_eq_ok.1 hload
  exact ⟨s', rfl, Faithful.sound_of_load ht hs'⟩

end Wraps

end SignalEngine
