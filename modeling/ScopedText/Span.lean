/-!
# Spans

A `Span` is a stretch of a text between two of its positions, so both ends lie between characters
and within the text, and the span is not reversed.
-/

namespace ScopedText

structure Span (text : String) where
  start : text.Pos
  stop : text.Pos
  le : start ≤ stop
deriving DecidableEq

namespace Span

variable {t : String}

def text (s : Span t) : String := String.extract s.start s.stop

/-- The position in a span that is closest to the given one. -/
def clamp (s : Span t) (p : t.Pos) : t.Pos :=
  if p < s.start then s.start else if s.stop < p then s.stop else p

theorem start_le_clamp (s : Span t) (p : t.Pos) : s.start ≤ s.clamp p := by
  unfold clamp
  split
  · exact String.Pos.le_refl _
  · split
    · exact s.le
    · exact Std.not_lt.mp ‹_›

theorem clamp_le_stop (s : Span t) (p : t.Pos) : s.clamp p ≤ s.stop := by
  unfold clamp
  split
  · exact s.le
  · split
    · exact String.Pos.le_refl _
    · exact Std.not_lt.mp ‹_›

theorem clamp_le_clamp (s : Span t) {p q : t.Pos} (h : p ≤ q) : s.clamp p ≤ s.clamp q := by
  have hs := s.le
  unfold clamp
  simp only [String.Pos.le_iff, String.Pos.lt_iff] at *
  grind

/-- The part of a span that lies in another one; a span outside of it shrinks to an end of it. -/
def clampTo (s whole : Span t) : Span t :=
  ⟨whole.clamp s.start, whole.clamp s.stop, whole.clamp_le_clamp s.le⟩

end Span

end ScopedText
