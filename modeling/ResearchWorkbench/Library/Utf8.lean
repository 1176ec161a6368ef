import Mathlib.Data.List.Basic

namespace ResearchWorkbench

/-!
# Decoding UTF-8

The decoder of the Encoding standard, which gives U+FFFD for what is not UTF-8, with UTF-16 code units
as its output.

* `Utf8State`, `Utf8State.next` — one byte: the code units that it completes, and what is awaited;
* `decodeUtf8` — a whole text;
* `decodeUtf8_ascii_append`, `decodeUtf8_append_ascii` — ASCII before and after any bytes stands for
  itself.
-/

/-- The decoder: how many bytes it awaits, the code point so far, and the bounds of the next byte. -/
structure Utf8State where
  needed : ℕ
  codePoint : ℕ
  lower : ℕ
  upper : ℕ
  deriving DecidableEq, Repr

namespace Utf8State

/-- Between two code points. -/
def idle : Utf8State := ⟨0, 0, 0x80, 0xBF⟩

/-- The code units of a code point. -/
def units (codePoint : ℕ) : List ℕ :=
  if codePoint < 0x10000 then [codePoint]
  else [0xD800 + (codePoint - 0x10000) / 0x400, 0xDC00 + (codePoint - 0x10000) % 0x400]

/-- The first byte of a code point. -/
def start (b : ℕ) : List ℕ × Utf8State :=
  if b < 0x80 then ([b], idle)
  else if 0xC2 ≤ b ∧ b ≤ 0xDF then ([], ⟨1, b % 0x20, 0x80, 0xBF⟩)
  else if 0xE0 ≤ b ∧ b ≤ 0xEF then
    ([], ⟨2, b % 0x10, if b = 0xE0 then 0xA0 else 0x80, if b = 0xED then 0x9F else 0xBF⟩)
  else if 0xF0 ≤ b ∧ b ≤ 0xF4 then
    ([], ⟨3, b % 0x08, if b = 0xF0 then 0x90 else 0x80, if b = 0xF4 then 0x8F else 0xBF⟩)
  else ([0xFFFD], idle)

/-- A byte; one that is out of bounds ends the code point before it, and begins another. -/
def next (s : Utf8State) (b : ℕ) : List ℕ × Utf8State :=
  if s.needed = 0 then start b
  else if b < s.lower ∨ s.upper < b then (0xFFFD :: (start b).1, (start b).2)
  else if s.needed = 1 then (units (s.codePoint * 0x40 + b % 0x40), idle)
  else ([], ⟨s.needed - 1, s.codePoint * 0x40 + b % 0x40, 0x80, 0xBF⟩)

/-- The end of the text. -/
def finish (s : Utf8State) : List ℕ := if s.needed = 0 then [] else [0xFFFD]

end Utf8State

/-- The code units of the bytes from some state on. -/
def decodeUtf8From (s : Utf8State) : List UInt8 → List ℕ
  | [] => s.finish
  | b :: bytes => (s.next b.toNat).1 ++ decodeUtf8From (s.next b.toNat).2 bytes

/-- `Buffer.toString("utf8")`. -/
def decodeUtf8 (bytes : List UInt8) : List ℕ := decodeUtf8From .idle bytes

/-- The bytes of an ASCII string. -/
def asciiBytes (s : String) : List UInt8 := s.toList.map fun c => c.toNat.toUInt8

variable {s : Utf8State} {bytes ascii : List UInt8}

/-- An ASCII byte is no part of a longer code point. -/
def Utf8State.Bounded (s : Utf8State) : Prop := s.needed ≠ 0 → 0x80 ≤ s.lower

theorem Utf8State.bounded_idle : idle.Bounded := fun h => absurd rfl h

theorem Utf8State.bounded_start (b : ℕ) : (start b).2.Bounded := by
  unfold start Bounded
  split
  · simp [idle]
  split
  · simp
  split
  · intro _
    show 0x80 ≤ if b = 0xE0 then _ else _
    split <;> omega
  split
  · intro _
    show 0x80 ≤ if b = 0xF0 then _ else _
    split <;> omega
  · simp [idle]

theorem Utf8State.Bounded.next (b : ℕ) : (s.next b).2.Bounded := by
  unfold Utf8State.next
  split
  · exact bounded_start b
  split
  · exact bounded_start b
  split
  · simp [Bounded, idle]
  · simp [Bounded]

/-- An ASCII byte ends what is before it, and stands for itself. -/
theorem decodeUtf8From_ascii_cons (hs : s.Bounded) {b : UInt8} (hb : b.toNat < 0x80) :
    decodeUtf8From s (b :: bytes) = s.finish ++ b.toNat :: decodeUtf8 bytes := by
  have hstart : Utf8State.start b.toNat = ([b.toNat], .idle) := by
    rw [Utf8State.start, if_pos hb]
  show (s.next b.toNat).1 ++ decodeUtf8From (s.next b.toNat).2 bytes = _
  unfold Utf8State.next Utf8State.finish
  by_cases hneeded : s.needed = 0
  · rw [if_pos hneeded, if_pos hneeded, hstart]
    rfl
  · have hlower := hs hneeded
    rw [if_neg hneeded, if_neg hneeded, if_pos (.inl (by omega)), hstart]
    rfl

theorem decodeUtf8_ascii_append (h : ∀ b ∈ ascii, b.toNat < 0x80) :
    decodeUtf8 (ascii ++ bytes) = ascii.map UInt8.toNat ++ decodeUtf8 bytes := by
  induction ascii with
  | nil => rfl
  | cons b ascii ih =>
    rw [List.forall_mem_cons] at h
    rw [List.cons_append, decodeUtf8, decodeUtf8From_ascii_cons Utf8State.bounded_idle h.1, ih h.2]
    rfl

theorem decodeUtf8From_append_ascii (hs : s.Bounded) {b : UInt8} (hb : b.toNat < 0x80) :
    decodeUtf8From s (bytes ++ b :: ascii) =
      decodeUtf8From s bytes ++ decodeUtf8 (b :: ascii) := by
  induction bytes generalizing s with
  | nil =>
    have hbegin : decodeUtf8 (b :: ascii) = b.toNat :: decodeUtf8 ascii :=
      decodeUtf8From_ascii_cons Utf8State.bounded_idle hb
    rw [List.nil_append, decodeUtf8From_ascii_cons hs hb, hbegin]
    rfl
  | cons c bytes ih =>
    show (s.next c.toNat).1 ++ decodeUtf8From _ (bytes ++ b :: ascii) = _
    rw [ih (Utf8State.Bounded.next c.toNat), ← List.append_assoc]
    rfl

/-- **ASCII at the end.**  Whatever is before it. -/
theorem decodeUtf8_append_ascii (hne : ascii ≠ []) (h : ∀ b ∈ ascii, b.toNat < 0x80) :
    decodeUtf8 (bytes ++ ascii) = decodeUtf8 bytes ++ ascii.map UInt8.toNat := by
  rcases ascii with _ | ⟨b, ascii⟩
  · exact absurd rfl hne
  · rw [decodeUtf8, decodeUtf8From_append_ascii Utf8State.bounded_idle (h b List.mem_cons_self),
      ← List.append_nil (b :: ascii), decodeUtf8_ascii_append h]
    simp [decodeUtf8, decodeUtf8From, Utf8State.idle, Utf8State.finish]

/-- Bytes that are not decoded to anything leave something awaited. -/
theorem decodeUtf8From_ne_nil (h : s.needed ≠ 0 ∨ bytes ≠ []) : decodeUtf8From s bytes ≠ [] := by
  induction bytes generalizing s with
  | nil =>
    have hneeded : s.needed ≠ 0 := h.resolve_right (by simp)
    rw [decodeUtf8From, Utf8State.finish, if_neg hneeded]
    simp
  | cons b bytes ih =>
    show (s.next b.toNat).1 ++ decodeUtf8From (s.next b.toNat).2 bytes ≠ []
    intro hnil
    obtain ⟨hunits, hrest⟩ := List.append_eq_nil_iff.mp hnil
    have hstart (c : ℕ) (hc : (Utf8State.start c).1 = []) : (Utf8State.start c).2.needed ≠ 0 := by
      unfold Utf8State.start at hc ⊢
      split at hc
      · cases hc
      rename_i h1
      rw [if_neg h1]
      split at hc
      · rename_i h2
        rw [if_pos h2]
        simp
      rename_i h2
      rw [if_neg h2]
      split at hc
      · rename_i h3
        rw [if_pos h3]
        simp
      rename_i h3
      rw [if_neg h3]
      split at hc
      · rename_i h4
        rw [if_pos h4]
        simp
      · cases hc
    refine ih (.inl ?_) hrest
    unfold Utf8State.next at hunits ⊢
    split at hunits
    · rename_i h1
      rw [if_pos h1]
      exact hstart _ hunits
    rename_i h1
    rw [if_neg h1]
    split at hunits
    · cases hunits
    rename_i h2
    rw [if_neg h2]
    split at hunits
    · unfold Utf8State.units at hunits
      split at hunits <;> cases hunits
    · rename_i h3
      rw [if_neg h3]
      show s.needed - 1 ≠ 0
      omega

end ResearchWorkbench
