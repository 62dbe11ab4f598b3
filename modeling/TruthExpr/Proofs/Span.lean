import TruthExpr.Text.Cursor

/-! # Spans — the text between two cursors

    A parser that matches takes a cursor from one place of a text to another.
    What it has read is the SPAN between the two, as characters.  Spans can
    be put together and taken apart like the lists they are, so a statement
    about a parser becomes one about lists of characters:

    * `Spans.trans` and `Spans.split` join and cut spans;
    * `startsWith_iff_spans` says that a cursor inside its text starts with a
      lead exactly when the lead spans up to some cursor;
    * `spans_ofString` and `atEnd_iff` are the two ends of a whole text. -/

namespace TruthExpr

namespace Cursor

variable {c c₁ c₂ : Cursor} {s t : List Char}

/-- The position lies in the text or at its end. -/
def Inside (c : Cursor) : Prop := 0 ≤ c.pos ∧ c.pos ≤ c.text.size

/-- The characters `s` stand between `c` and `c₁`. -/
structure Spans (c : Cursor) (s : List Char) (c₁ : Cursor) : Prop where
  inside : c.Inside
  next : c₁ = c.advance s.length
  left : c.left = s ++ c₁.left

/-- A cursor that is not before the text looks where its position says. -/
theorem offset_of_nonneg (h : 0 ≤ c.pos) : c.offset = c.pos.toNat := by
  rw [offset, if_neg (by omega)]

/-- A move drops characters of what is left. -/
theorem left_advance (h : 0 ≤ c.pos) (n : Nat) :
    (c.advance n).left = c.left.drop n := by
  have hpos : 0 ≤ (c.advance n).pos := by
    show 0 ≤ c.pos + n
    omega
  have hadd : (c.advance n).pos.toNat = c.pos.toNat + n := by
    show (c.pos + n).toNat = c.pos.toNat + n
    omega
  rw [left, left, offset_of_nonneg h, offset_of_nonneg hpos, hadd, List.drop_drop]
  rfl

/-- What is left reaches to the end of the text. -/
theorem length_left (h : c.Inside) : (c.left.length : Int) = c.text.size - c.pos := by
  obtain ⟨hlow, hhigh⟩ := h
  have hlen : c.left.length = c.text.size - c.pos.toNat := by
    rw [left, offset_of_nonneg hlow, List.length_drop, Array.length_toList]
  omega

/-- What is left never reaches beyond the end of the text, wherever the
    cursor stands. -/
theorem pos_add_length_left_le (h : c.pos ≤ c.text.size) :
    c.pos + c.left.length ≤ c.text.size := by
  have hlen : c.left.length = c.text.size - c.offset := by
    rw [left, List.length_drop, Array.length_toList]
  rw [hlen]
  unfold offset
  split <;> omega

/-- What a cursor starts with ends inside the text, wherever the cursor
    stands. -/
theorem pos_add_length_le {lead : String} (h : c.startsWith lead = true) :
    c.pos + lead.length ≤ c.text.size := by
  obtain ⟨hle, hpre⟩ := (c.startsWith_iff lead).mp h
  have hlen := hpre.length_le
  rw [String.length_toList] at hlen
  have hend := pos_add_length_left_le hle
  omega

/-- A beginning of what is left is a span. -/
theorem Inside.spans (h : c.Inside) {r : List Char} (hl : c.left = s ++ r) :
    c.Spans s (c.advance s.length) ∧ (c.advance s.length).left = r := by
  have hr : (c.advance s.length).left = r := by
    rw [left_advance h.1, hl, List.drop_left]
  exact ⟨⟨h, rfl, by rw [hr, hl]⟩, hr⟩

/-- Nothing stands between a cursor and itself. -/
theorem Inside.spans_nil (h : c.Inside) : c.Spans [] c := ⟨h, by simp [advance], rfl⟩

namespace Spans

theorem pos_eq (h : c.Spans s c₁) : c₁.pos = c.pos + s.length := by
  rw [h.next]
  rfl

theorem text_eq (h : c.Spans s c₁) : c₁.text = c.text := by
  rw [h.next]
  rfl

/-- A span ends inside the text. -/
theorem inside_next (h : c.Spans s c₁) : c₁.Inside := by
  have hlen := length_left h.inside
  rw [h.left, List.length_append] at hlen
  obtain ⟨hlow, hhigh⟩ := h.inside
  have hpos := h.pos_eq
  refine ⟨by omega, ?_⟩
  rw [h.text_eq]
  omega

/-- Two spans in a row are one. -/
theorem trans (h₁ : c.Spans s c₁) (h₂ : c₁.Spans t c₂) : c.Spans (s ++ t) c₂ := by
  refine ⟨h₁.inside, ?_, ?_⟩
  · rw [h₂.next, h₁.next]
    simp [advance, Int.add_assoc]
  · rw [h₁.left, h₂.left, List.append_assoc]

/-- A span of two parts has a cursor between them. -/
theorem split (h : c.Spans (s ++ t) c₂) : ∃ c₁, c.Spans s c₁ ∧ c₁.Spans t c₂ := by
  obtain ⟨h₁, hl⟩ := h.inside.spans (s := s) (r := t ++ c₂.left)
    (by rw [h.left, List.append_assoc])
  refine ⟨c.advance s.length, h₁, h₁.inside_next, ?_, hl⟩
  rw [h.next]
  simp [advance, Int.add_assoc]

/-- Where two spans from one cursor end depends on their lengths alone. -/
theorem next_eq (h₁ : c.Spans s c₁) (h₂ : c.Spans t c₂) (h : s.length = t.length) : c₁ = c₂ := by
  rw [h₁.next, h₂.next, h]

end Spans

/-- Inside a text, a cursor starts with a lead exactly when the lead spans up
    to some cursor. -/
theorem startsWith_iff_spans (h : c.Inside) (lead : String) :
    c.startsWith lead = true ↔ c.Spans lead.toList (c.advance lead.length) := by
  rw [startsWith_iff]
  constructor
  · rintro ⟨-, r, hr⟩
    rw [← String.length_toList]
    exact (h.spans hr.symm).1
  · intro hs
    exact ⟨h.2, _, hs.left.symm⟩

/-- A lead that spans lets the cursor start with it. -/
theorem Spans.startsWith {lead : String} (h : c.Spans lead.toList c₁) :
    c.startsWith lead = true :=
  (startsWith_iff c lead).mpr ⟨h.inside.2, c₁.left, h.left.symm⟩

/-- Two leads that differ in their first characters do not stand in the same
    place. -/
theorem startsWith_eq_false {lead other : String} {x y : Char} {xs ys : List Char}
    (h : c.startsWith lead = true) (hl : lead.toList = x :: xs)
    (ho : other.toList = y :: ys) (hne : x ≠ y) : c.startsWith other = false := by
  rw [Bool.eq_false_iff]
  intro h'
  obtain ⟨-, r, hr⟩ := (startsWith_iff c lead).mp h
  obtain ⟨-, r', hr'⟩ := (startsWith_iff c other).mp h'
  rw [hl] at hr
  rw [ho, ← hr] at hr'
  exact hne (List.cons.inj hr').1.symm

/-- Nothing but the empty lead stands at the end of a text. -/
theorem startsWith_of_left_nil {lead : String} {x : Char} {xs : List Char}
    (h : c.left = []) (hl : lead.toList = x :: xs) : c.startsWith lead = false := by
  rw [Bool.eq_false_iff]
  intro h'
  obtain ⟨-, r, hr⟩ := (startsWith_iff c lead).mp h'
  rw [h, hl] at hr
  exact nomatch hr

/-! ## Whole texts -/

theorem inside_ofString (text : String) : (ofString text).Inside :=
  ⟨Int.le_refl 0, Int.natCast_nonneg _⟩

theorem left_ofString (text : String) : (ofString text).left = text.toList := by
  simp [left, offset, ofString]

/-- A whole text spans from its beginning to where nothing is left. -/
theorem spans_ofString (text : String) :
    (ofString text).Spans text.toList ((ofString text).advance text.length)
      ∧ ((ofString text).advance text.length).left = [] := by
  rw [← String.length_toList]
  refine (inside_ofString text).spans ?_
  rw [left_ofString, List.append_nil]

/-- Inside a text, its end is where nothing is left. -/
theorem atEnd_iff (h : c.Inside) : c.atEnd = true ↔ c.left = [] := by
  have hlen := length_left h
  rw [← List.length_eq_zero_iff]
  simp only [atEnd, decide_eq_true_eq]
  omega

end Cursor

end TruthExpr
