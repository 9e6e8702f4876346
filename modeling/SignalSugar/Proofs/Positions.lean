import Mathlib
import SignalSugar.Error
/-!
# Positions in source text

A failure is reported at the line and column of the byte offset where it starts, with the text
of that line beside it. This module states both against the text itself.

An offset is first moved back to a character boundary: the greatest one (in the sense of
`String.Pos.Raw.IsValid`) at or before the offset and the end of the text. The boundaries of a
text are the byte sizes of its prefixes, so the text before the boundary is a prefix `p`, and the
line is one more than the number of LFs in `p`, the column one more than the number of characters
of `p` after its last LF. Positions are ordered as they are read, by line and then by column
(`LineColumn.lt_iff`), and on boundaries `lineColumn` is strictly increasing: a longer prefix
either holds one more LF or ends one character further along its last line.

The line quoted is the `n`-th of the pieces the text falls into at its LFs, with trailing white
space cut, and none when that piece is missing or blank. A CR before an LF is white space, so it
is cut with the rest.

## Main results

* `lineColumn_eq_counts_before`: the line and column of an offset are those of the prefix up to the
  greatest boundary before it.
* `lineColumn_strictMonoOn`: on boundaries, a later offset has a later position.
* `sourceLine_eq_piece`: the quoted line is the trimmed piece of the text, or none.
* `report_positions_consistent`: all three, for the position and the context of every report.
-/

namespace SignalSugar

/-! ### Positions in reading order -/

namespace LineColumn

/-- The position as a pair compared line first. -/
def lexKey (lc : LineColumn) : Lex (Nat × Nat) := toLex (lc.line, lc.column)

theorem lexKey_injective : Function.Injective lexKey := by
  intro a b h
  have h' : (a.line, a.column) = (b.line, b.column) := congrArg ofLex h
  cases a
  cases b
  simp only [Prod.mk.injEq] at h'
  rw [h'.1, h'.2]

/-- Positions are ordered as they are read: by line, then by column. -/
instance : LinearOrder LineColumn := LinearOrder.lift' lexKey lexKey_injective

theorem lt_iff {a b : LineColumn} :
    a < b ↔ a.line < b.line ∨ a.line = b.line ∧ a.column < b.column :=
  Prod.Lex.lt_iff

end LineColumn

/-! ### Counting lines and columns -/

/-- Reading one more character: an LF opens the next line, anything else moves one column on. -/
theorem lineColumnOf_concat (cs : List Char) (c : Char) :
    lineColumnOf (cs ++ [c]) =
      if c = '\n' then ⟨(lineColumnOf cs).line + 1, 1⟩
      else ⟨(lineColumnOf cs).line, (lineColumnOf cs).column + 1⟩ := by
  simp only [lineColumnOf, List.foldl_append, List.foldl_cons, List.foldl_nil]

/-- **The position after some characters**: one more than the LFs among them, and one more than
the characters after the last of them. -/
theorem lineColumnOf_eq (cs : List Char) :
    lineColumnOf cs =
      ⟨1 + cs.count '\n', 1 + (cs.reverse.takeWhile (· ≠ '\n')).length⟩ := by
  induction cs using List.reverseRecOn with
  | nil => rfl
  | append_singleton cs c ih =>
    rw [lineColumnOf_concat, ih, List.count_append, List.reverse_append]
    by_cases hc : c = '\n'
    · subst hc
      simp
      omega
    · simp [hc]
      omega

theorem lineColumnOf_lt_concat (cs : List Char) (c : Char) :
    lineColumnOf cs < lineColumnOf (cs ++ [c]) := by
  rw [lineColumnOf_concat, LineColumn.lt_iff]
  split <;> simp

/-- Reading on never moves back. -/
theorem lineColumnOf_le_append (cs : List Char) :
    ∀ t : List Char, lineColumnOf cs ≤ lineColumnOf (cs ++ t) := by
  intro t
  induction t using List.reverseRecOn with
  | nil => simp
  | append_singleton t c ih =>
    rw [← List.append_assoc]
    exact ih.trans (lineColumnOf_lt_concat _ c).le

/-- Reading at least one more character moves forward. -/
theorem lineColumnOf_lt_append (cs : List Char) {t : List Char} (ht : t ≠ []) :
    lineColumnOf cs < lineColumnOf (cs ++ t) := by
  obtain ⟨c, t', rfl⟩ := List.exists_cons_of_ne_nil ht
  calc lineColumnOf cs < lineColumnOf (cs ++ [c]) := lineColumnOf_lt_concat cs c
    _ ≤ lineColumnOf (cs ++ [c] ++ t') := lineColumnOf_le_append _ t'
    _ = lineColumnOf (cs ++ c :: t') := by simp

/-! ### Character boundaries -/

/-- The characters before a byte offset are a prefix of the text that fits before it, and the
next character, if any, does not. -/
theorem charsBefore_spec (cs : List Char) (o : Nat) :
    ∃ rest, cs = charsBefore cs o ++ rest ∧ String.utf8Len (charsBefore cs o) ≤ o ∧
      ∀ c r, rest = c :: r → o < String.utf8Len (charsBefore cs o) + c.utf8Size := by
  induction cs generalizing o with
  | nil => exact ⟨[], rfl, by simp [charsBefore], by simp⟩
  | cons c cs ih =>
    by_cases hc : c.utf8Size ≤ o
    · obtain ⟨rest, hcs, hle, hnext⟩ := ih (o - c.utf8Size)
      refine ⟨rest, ?_, ?_, fun c' r hr => ?_⟩
      · simp [charsBefore, hc, ← hcs]
      · simp only [charsBefore, hc, if_true, String.utf8Len_cons]
        omega
      · have := hnext c' r hr
        simp only [charsBefore, hc, if_true, String.utf8Len_cons]
        omega
    · refine ⟨c :: cs, by simp [charsBefore, hc], by simp [charsBefore, hc], fun c' r hr => ?_⟩
      cases hr
      simp only [charsBefore, hc, if_false, String.utf8Len_nil]
      omega

/-- At the byte size of a prefix, the characters before it are the prefix. -/
theorem charsBefore_append (p rest : List Char) :
    charsBefore (p ++ rest) (String.utf8Len p) = p := by
  induction p with
  | nil =>
    cases rest with
    | nil => rfl
    | cons c r =>
      have := Char.utf8Size_pos c
      simp only [List.nil_append, charsBefore, String.utf8Len_nil]
      rw [if_neg (by omega)]
  | cons c p ih =>
    simp only [List.cons_append, charsBefore, String.utf8Len_cons, Nat.le_add_left, if_true,
      Nat.add_sub_cancel, ih]

/-- The boundaries of a text are the byte sizes of its prefixes. -/
theorem isValid_iff_append {s : String} {b : Nat} :
    String.Pos.Raw.IsValid s ⟨b⟩ ↔ ∃ p q : String, s = p ++ q ∧ b = p.utf8ByteSize := by
  rw [String.Pos.Raw.isValid_iff_exists_append]
  simp only [String.Pos.Raw.ext_iff, String.byteIdx_rawEndPos]

/-- The byte size of a text is that of its characters. -/
theorem utf8ByteSize_eq_utf8Len (s : String) : s.utf8ByteSize = String.utf8Len s.toList := by
  rw [← String.utf8ByteSize_ofList, String.ofList_toList]

/-- Of two prefixes of a text, the one with fewer bytes is a prefix of the other. -/
theorem prefix_of_utf8Len_le {p₁ p₂ cs : List Char} (h₁ : p₁ <+: cs) (h₂ : p₂ <+: cs)
    (hle : String.utf8Len p₁ ≤ String.utf8Len p₂) : p₁ <+: p₂ := by
  rcases List.prefix_or_prefix_of_prefix h₁ h₂ with h | ⟨t, rfl⟩
  · exact h
  · rw [String.utf8Len_append] at hle
    obtain rfl : t = [] := String.utf8Len_eq_zero.1 (by omega)
    simp

/-! ### The line and column of an offset -/

variable (s : String)

/-- **The position of an offset** is that of the prefix of the text up to the greatest character
boundary at or before the offset and the end of the text. -/
theorem lineColumn_eq_counts_before (o : Nat) :
    ∃ p q : String, s = p ++ q ∧
      IsGreatest {b | String.Pos.Raw.IsValid s ⟨b⟩ ∧ b ≤ min o s.utf8ByteSize}
        p.utf8ByteSize ∧
      lineColumn s o =
        ⟨1 + p.toList.count '\n', 1 + (p.toList.reverse.takeWhile (· ≠ '\n')).length⟩ := by
  obtain ⟨rest, hcs, hle, hnext⟩ := charsBefore_spec s.toList o
  have hs : s = String.ofList (charsBefore s.toList o) ++ String.ofList rest := by
    rw [← String.toList_inj, String.toList_append, String.toList_ofList, String.toList_ofList,
      ← hcs]
  refine ⟨_, _, hs, ⟨⟨isValid_iff_append.2 ⟨_, _, hs, rfl⟩, ?_⟩, ?_⟩, ?_⟩
  · rw [String.utf8ByteSize_ofList, utf8ByteSize_eq_utf8Len, hcs, String.utf8Len_append, ← hcs]
    omega
  · rintro b ⟨hb, hbo⟩
    obtain ⟨p₁, q₁, hs₁, rfl⟩ := isValid_iff_append.1 hb
    rw [String.utf8ByteSize_ofList]
    have hp₁ : p₁.toList <+: s.toList := ⟨q₁.toList, by rw [hs₁, String.toList_append]⟩
    have hp : charsBefore s.toList o <+: s.toList := ⟨rest, hcs.symm⟩
    rw [utf8ByteSize_eq_utf8Len] at hbo ⊢
    by_contra hlt
    obtain ⟨t, ht⟩ := prefix_of_utf8Len_le hp hp₁ (by omega)
    have hrest : rest = t ++ q₁.toList := by
      have h₂ : s.toList = charsBefore s.toList o ++ (t ++ q₁.toList) := by
        rw [← List.append_assoc, ht]
        conv_lhs => rw [hs₁]
        rw [String.toList_append]
      exact List.append_cancel_left (hcs.symm.trans h₂)
    cases t with
    | nil => simp at ht; rw [← ht] at hlt; omega
    | cons c t =>
      have := hnext c (t ++ q₁.toList) (by rw [hrest]; rfl)
      have hsize : String.utf8Len p₁.toList =
          String.utf8Len (charsBefore s.toList o) + c.utf8Size + String.utf8Len t := by
        rw [← ht, String.utf8Len_append, String.utf8Len_cons]
        omega
      omega
  · rw [lineColumn, String.toList_ofList, lineColumnOf_eq]

/-- An offset inside the two bytes of `é` is counted from the start of `é`. -/
example : lineColumn "let a = 1;\nlet bé = x;" 17 = ⟨2, 6⟩ := by decide

/-- The position of a boundary is that of the prefix before it. -/
theorem lineColumn_utf8ByteSize_left {p q : String} (hs : s = p ++ q) :
    lineColumn s p.utf8ByteSize = lineColumnOf p.toList := by
  rw [lineColumn, hs, String.toList_append, utf8ByteSize_eq_utf8Len, charsBefore_append]

/-- **On character boundaries, a later offset has a later position.** -/
theorem lineColumn_strictMonoOn :
    StrictMonoOn (lineColumn s) {b | String.Pos.Raw.IsValid s ⟨b⟩} := by
  intro b hb b' hb' hlt
  obtain ⟨p, q, hs, rfl⟩ := isValid_iff_append.1 hb
  obtain ⟨p', q', hs', rfl⟩ := isValid_iff_append.1 hb'
  rw [lineColumn_utf8ByteSize_left s hs, lineColumn_utf8ByteSize_left s hs']
  rw [utf8ByteSize_eq_utf8Len, utf8ByteSize_eq_utf8Len] at hlt
  have hp : p.toList <+: s.toList := ⟨q.toList, by rw [hs, String.toList_append]⟩
  have hp' : p'.toList <+: s.toList := ⟨q'.toList, by rw [hs', String.toList_append]⟩
  obtain ⟨t, ht⟩ := prefix_of_utf8Len_le hp hp' hlt.le
  have hne : t ≠ [] := by
    rintro rfl
    rw [List.append_nil] at ht
    rw [ht] at hlt
    exact lt_irrefl _ hlt
  rw [← ht]
  exact lineColumnOf_lt_append _ hne

/-! ### The quoted line -/

/-- The text quoted for a piece of the source: the piece without trailing white space, or none
when nothing else is left of it. -/
def quotedPiece (piece : String) : Option String :=
  if ∀ c ∈ piece.toList, isBlank c = true then none
  else some (String.ofList (piece.toList.rdropWhile isBlank))

theorem quotedPiece_empty : quotedPiece "" = none := by
  simp [quotedPiece]

/-- The model's cut of trailing white space is `quotedPiece`. -/
theorem trimmed_eq_quotedPiece (l : String) :
    (let t := String.ofList (l.toList.reverse.dropWhile isBlank).reverse
      if t.isEmpty then none else some t) = quotedPiece l := by
  have hr : (l.toList.reverse.dropWhile isBlank).reverse = l.toList.rdropWhile isBlank := rfl
  simp only [hr, quotedPiece]
  by_cases h : ∀ c ∈ l.toList, isBlank c = true
  · have h' : l.toList.rdropWhile isBlank = [] := List.rdropWhile_eq_nil_iff.2 h
    simp only [h']
    simpa using h
  · have h' : l.toList.rdropWhile isBlank ≠ [] := fun he => h (List.rdropWhile_eq_nil_iff.1 he)
    have hne : (String.ofList (l.toList.rdropWhile isBlank)).isEmpty = false := by
      rw [Bool.eq_false_iff, ne_eq, String.isEmpty_iff, ← String.toList_inj,
        String.toList_ofList]
      simpa using h'
    simp [h, hne]

/-- Dropping a final empty piece changes no quoted piece. -/
theorem lines_bind_quotedPiece (i : Nat) :
    (lines s)[i]?.bind quotedPiece = (s.splitOn "\n")[i]?.bind quotedPiece := by
  unfold lines
  split
  · rename_i rest hrev
    have hsplit : s.splitOn "\n" = rest.reverse ++ [""] := by
      rw [← List.reverse_reverse (s.splitOn "\n"), hrev, List.reverse_cons]
    rw [hsplit, List.getElem?_append]
    split
    · rfl
    · rw [List.getElem?_eq_none (by omega)]
      cases h : [""][i - rest.reverse.length]? with
      | none => rfl
      | some x =>
        obtain rfl : x = "" := by simpa using (List.mem_of_getElem? h)
        rw [Option.bind_none, Option.bind_some, quotedPiece_empty]
  · simp only [List.reverse_reverse]

/-- **The quoted line** is the `n`-th piece of the text between LFs, without trailing white
space, or none when that piece is missing or blank. -/
theorem sourceLine_eq_piece (n : Nat) :
    sourceLine s n = (s.splitOn "\n")[n - 1]?.bind quotedPiece := by
  rw [← lines_bind_quotedPiece]
  unfold sourceLine
  split
  · rename_i l hl
    rw [hl, Option.bind_some, trimmed_eq_quotedPiece]
  · rename_i hl
    rw [hl, Option.bind_none]

/-- **A report places its failure consistently.** For every text: the line and column of an
offset are those of the prefix up to the greatest character boundary at or before the offset and
the end of the text; on boundaries the position strictly increases in reading order, so no two
boundaries share one; and the line a report quotes is its line's piece of the text between LFs,
without trailing white space, or none when that piece is missing or blank. -/
theorem report_positions_consistent :
    (∀ o, ∃ p q : String, s = p ++ q ∧
      IsGreatest {b | String.Pos.Raw.IsValid s ⟨b⟩ ∧ b ≤ min o s.utf8ByteSize}
        p.utf8ByteSize ∧
      lineColumn s o =
        ⟨1 + p.toList.count '\n', 1 + (p.toList.reverse.takeWhile (· ≠ '\n')).length⟩) ∧
    StrictMonoOn (lineColumn s) {b | String.Pos.Raw.IsValid s ⟨b⟩} ∧
    Set.InjOn (lineColumn s) {b | String.Pos.Raw.IsValid s ⟨b⟩} ∧
    ∀ (e : RewriteError) (file : String),
      (e.report file s).context =
        (s.splitOn "\n")[(e.report file s).line - 1]?.bind fun piece =>
          if ∀ c ∈ piece.toList, isBlank c = true then none
          else some (String.ofList (piece.toList.rdropWhile isBlank)) :=
  ⟨lineColumn_eq_counts_before s, lineColumn_strictMonoOn s, (lineColumn_strictMonoOn s).injOn,
    fun _ _ => sourceLine_eq_piece s _⟩

end SignalSugar
