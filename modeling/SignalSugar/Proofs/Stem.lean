import SignalSugar.Name.Stem
/-!
# Stems are identifiers

Every generated name is `_`, a stem made from a hint, and from the second try on the number
of the try (`Name.candidate`). This module shows that the stem rule (`Name.sanitize`) always
gives a stem that names can be built on:

* `sanitize_isStem`: a stem starts with an ASCII letter or `$`, holds only ASCII letters,
  digits, `_` and `$`, and does not end in a digit (`IsStem`);
* `isStem_iff`: the stems are exactly the texts the rule leaves as they are, so the rule is
  idempotent;
* `isIdentifier_candidate`: every try of a stem is an ASCII identifier name;
* `candidate_inj`: two tries of stems give the same name only for the same stem and the same
  try. A stem does not end in a digit, so the digits at the end of a name are the number of
  the try and nothing else.

The character classes met here are ASCII, so the facts about single characters are settled
by evaluation over the 128 ASCII characters (`ascii_all`).
-/

namespace SignalSugar.Name

/-- What a stem looks like: it starts with an ASCII letter or `$`, holds only ASCII letters,
digits, `_` and `$`, and does not end in a digit. -/
structure IsStem (s : String) : Prop where
  head : ∃ c cs, s.toList = c :: cs ∧ (c.isAlpha = true ∨ c = '$')
  chars : ∀ c ∈ s.toList, c.isAlphanum = true ∨ c = '_' ∨ c = '$'
  last : ∀ c ∈ s.toList.getLast?, c.isDigit = false

/-! ### Characters -/

/-- The word characters are ASCII. -/
theorem toNat_lt_of_isWordChar {c : Char} (h : isWordChar c = true) : c.toNat < 128 := by
  simp only [isWordChar] at h
  delta Char.isAlphanum Char.isAlpha Char.isUpper Char.isLower Char.isDigit at h
  simp only [Bool.or_eq_true, Bool.and_eq_true, decide_eq_true_eq] at h
  have hv : c.toNat = c.val.toNat := rfl
  rcases h with (((⟨_, h⟩ | ⟨_, h⟩) | ⟨_, h⟩) | h) | h
  · rw [UInt32.le_iff_toNat_le] at h
    have : 'Z'.val.toNat = 90 := rfl
    omega
  · rw [UInt32.le_iff_toNat_le] at h
    have : 'z'.val.toNat = 122 := rfl
    omega
  · rw [UInt32.le_iff_toNat_le] at h
    have : '9'.val.toNat = 57 := rfl
    omega
  · subst h; decide
  · subst h; decide

/-- A property of every ASCII character holds of each character below 128. -/
theorem ascii_all {P : Char → Prop} (h : ∀ n, n < 128 → P (Char.ofNat n)) {c : Char}
    (hc : c.toNat < 128) : P c := by
  have := h c.toNat hc
  rwa [Char.ofNat_toNat] at this

/-- Raising the first letter of a later word keeps it a word character. -/
theorem isWordChar_toUpper {c : Char} (h : isWordChar c = true) :
    isWordChar c.toUpper = true :=
  @ascii_all (fun c => isWordChar c = true → isWordChar c.toUpper = true) (by decide) c
    (toNat_lt_of_isWordChar h) h

theorem isWordChar_iff {c : Char} :
    isWordChar c = true ↔ c.isAlphanum = true ∨ c = '_' ∨ c = '$' := by
  simp [isWordChar, or_assoc]

theorem isWordChar_of_isDigit {c : Char} (h : c.isDigit = true) : isWordChar c = true := by
  simp only [isWordChar]
  delta Char.isAlphanum
  simp [h]

theorem isWordChar_of_isAlpha {c : Char} (h : c.isAlpha = true) : isWordChar c = true := by
  simp only [isWordChar]
  delta Char.isAlphanum
  simp [h]

/-- A word character that is neither a digit nor `_` is a letter or `$`. -/
theorem start_of_not_lead {c : Char} (h : isWordChar c = true)
    (hl : (c.isDigit || decide (c = '_')) = false) : c.isAlpha = true ∨ c = '$' :=
  @ascii_all (fun c => isWordChar c = true → (c.isDigit || decide (c = '_')) = false →
      c.isAlpha = true ∨ c = '$') (by decide) c (toNat_lt_of_isWordChar h) h hl

/-- A letter or `$` is neither a digit nor `_`. -/
theorem not_lead_of_start {c : Char} (h : c.isAlpha = true ∨ c = '$') :
    (c.isDigit || decide (c = '_')) = false := by
  rcases h with h | rfl
  · exact @ascii_all (fun c => c.isAlpha = true → (c.isDigit || decide (c = '_')) = false)
      (by decide) c (toNat_lt_of_isWordChar (isWordChar_of_isAlpha h)) h
  · decide

/-! ### Words -/

/-- No piece of a split holds an element it was split at. -/
theorem mem_splitOnP {α : Type} {p : α → Bool} :
    ∀ {xs : List α} {w : List α}, w ∈ xs.splitOnP p → ∀ x ∈ w, p x = false
  | [], w, hw, x, hx => by
    simp at hw; subst hw; simp at hx
  | y :: ys, w, hw, x, hx => by
    rw [List.splitOnP_cons_eq_if_modifyHead] at hw
    split at hw
    · simp only [List.mem_cons] at hw
      rcases hw with rfl | hw
      · simp at hx
      · exact mem_splitOnP hw x hx
    · rename_i hy
      obtain ⟨w0, rest, he⟩ := List.exists_cons_of_ne_nil (List.splitOnP_ne_nil p ys)
      rw [he] at hw
      simp only [List.modifyHead_cons, List.mem_cons] at hw
      rcases hw with rfl | hw
      · simp only [List.mem_cons] at hx
        rcases hx with rfl | hx
        · simpa using hy
        · exact mem_splitOnP (he ▸ List.mem_cons_self) x hx
      · exact mem_splitOnP (he ▸ List.mem_cons_of_mem _ hw) x hx

/-- The words of a hint hold word characters only. -/
theorem mem_words {cs w : List Char} (hw : w ∈ words cs) : ∀ c ∈ w, isWordChar c = true := by
  intro c hc
  simp only [words, List.mem_filter] at hw
  simpa using mem_splitOnP hw.1 c hc

/-- Joining words of word characters gives word characters. -/
theorem mem_joinWords {ws : List (List Char)} (h : ∀ w ∈ ws, ∀ c ∈ w, isWordChar c = true) :
    ∀ c ∈ joinWords ws, isWordChar c = true := by
  cases ws with
  | nil => simp [joinWords]
  | cons w ws =>
    intro c hc
    simp only [joinWords, List.mem_append, List.mem_flatten, List.mem_map] at hc
    rcases hc with hc | ⟨_, ⟨v, hv, rfl⟩, hc⟩
    · exact h w List.mem_cons_self c hc
    · have hv' := h v (List.mem_cons_of_mem _ hv)
      cases v with
      | nil => simp [capitalWord] at hc
      | cons d ds =>
        simp only [capitalWord, List.mem_cons] at hc
        rcases hc with rfl | hc
        · exact isWordChar_toUpper (hv' d List.mem_cons_self)
        · exact hv' c (List.mem_cons_of_mem _ hc)

/-! ### Trimming -/

/-- The characters a stem keeps of the joined words: leading digits and underscores, and
trailing digits, dropped. -/
def trimmed (cs : List Char) : List Char :=
  ((cs.dropWhile fun c => c.isDigit || decide (c = '_')).reverse.dropWhile Char.isDigit).reverse

theorem sanitize_eq (hint : String) :
    sanitize hint = if (trimmed (joinWords (words hint.toList))).isEmpty then "temp"
      else String.ofList (trimmed (joinWords (words hint.toList))) :=
  Bool.cond_eq_ite _ _ _

theorem mem_of_mem_trimmed {cs : List Char} {c : Char} (h : c ∈ trimmed cs) : c ∈ cs := by
  simp only [trimmed, List.mem_reverse] at h
  exact (List.dropWhile_suffix _).subset
    (List.mem_reverse.mp ((List.dropWhile_suffix _).subset h))

/-- What is left does not end in a digit. -/
theorem trimmed_last {cs : List Char} : ∀ c ∈ (trimmed cs).getLast?, c.isDigit = false := by
  intro c hc
  simp only [trimmed, List.getLast?_reverse] at hc
  have := List.head?_dropWhile_not Char.isDigit
    (cs.dropWhile fun c => c.isDigit || decide (c = '_')).reverse
  rw [Option.mem_def] at hc
  rw [hc] at this
  exact this

/-- What is left starts with neither a digit nor `_`: dropping trailing digits keeps a
prefix of what was left after the leading ones went. -/
theorem trimmed_head {cs : List Char} :
    ∀ c ∈ (trimmed cs).head?, (c.isDigit || decide (c = '_')) = false := by
  intro c hc
  have hpre : trimmed cs <+: cs.dropWhile fun c => c.isDigit || decide (c = '_') := by
    have := List.dropWhile_suffix Char.isDigit
      (l := (cs.dropWhile fun c => c.isDigit || decide (c = '_')).reverse)
    simpa [trimmed] using List.reverse_prefix.mpr this
  obtain ⟨u, hu⟩ := hpre
  have := List.head?_dropWhile_not (fun c => c.isDigit || decide (c = '_')) cs
  rw [← hu] at this
  rw [Option.mem_def] at hc
  cases ht : trimmed cs with
  | nil => simp [ht] at hc
  | cons d ds =>
    rw [ht] at hc this
    simp at hc this
    subst hc
    simp [this]

/-- Text that starts with a letter or `$` and does not end in a digit is kept whole. -/
theorem trimmed_self {cs : List Char} {c : Char} {r : List Char} (hcs : cs = c :: r)
    (hc : c.isAlpha = true ∨ c = '$') (hl : ∀ d ∈ cs.getLast?, d.isDigit = false) :
    trimmed cs = cs := by
  have h1 : (cs.dropWhile fun c => c.isDigit || decide (c = '_')) = cs := by
    rw [hcs, List.dropWhile_cons_of_neg (by simp [not_lead_of_start hc])]
  simp only [trimmed, h1]
  cases hr : cs.reverse with
  | nil => simp [hcs] at hr
  | cons d ds =>
    have hd : d.isDigit = false := by
      apply hl
      rw [← List.head?_reverse, hr]
      simp
    rw [List.dropWhile_cons_of_neg (by simp [hd]), ← hr, List.reverse_reverse]

/-! ### Stems -/

theorem temp_toList : "temp".toList = ['t', 'e', 'm', 'p'] := by simp

/-- The stem of a hint with no usable character. -/
theorem isStem_temp : IsStem "temp" where
  head := ⟨'t', ['e', 'm', 'p'], temp_toList, Or.inl rfl⟩
  chars := by
    rw [temp_toList]
    intro c hc
    simp only [List.mem_cons, List.not_mem_nil, or_false] at hc
    rcases hc with rfl | rfl | rfl | rfl <;> exact Or.inl rfl
  last := by
    rw [temp_toList]
    intro c hc
    simp only [List.getLast?_cons_cons, List.getLast?_singleton, Option.mem_def,
      Option.some.injEq] at hc
    subst hc
    rfl

/-- Every hint gives a stem. -/
theorem sanitize_isStem (hint : String) : IsStem (sanitize hint) := by
  rw [sanitize_eq]
  split
  · exact isStem_temp
  · rename_i hne
    have hchars : ∀ c ∈ trimmed (joinWords (words hint.toList)), isWordChar c = true :=
      fun c hc => mem_joinWords (fun _ hw => mem_words hw) c (mem_of_mem_trimmed hc)
    refine ⟨?_, ?_, ?_⟩
    · cases ht : trimmed (joinWords (words hint.toList)) with
      | nil => simp [ht] at hne
      | cons c r =>
        refine ⟨c, r, by simp, ?_⟩
        have hc : c ∈ trimmed (joinWords (words hint.toList)) := by simp [ht]
        have hh : c ∈ (trimmed (joinWords (words hint.toList))).head? := by simp [ht]
        exact start_of_not_lead (hchars c hc) (trimmed_head c hh)
    · intro c hc
      rw [String.toList_ofList] at hc
      exact isWordChar_iff.mp (hchars c hc)
    · rw [String.toList_ofList]
      exact trimmed_last

/-- A stem is one word. -/
theorem words_of_isStem {s : String} (h : IsStem s) : words s.toList = [s.toList] := by
  obtain ⟨c, cs, hs, _⟩ := h.head
  have hw : ∀ x ∈ s.toList, (!isWordChar x) = false := by
    intro x hx
    simpa using isWordChar_iff.mpr (h.chars x hx)
  rw [words, List.splitOnP_eq_singleton hw, hs]
  simp

/-- A stem is its own stem. -/
theorem sanitize_of_isStem {s : String} (h : IsStem s) : sanitize s = s := by
  obtain ⟨c, cs, hs, hc⟩ := h.head
  have ht : trimmed s.toList = s.toList := trimmed_self hs hc h.last
  rw [sanitize_eq, words_of_isStem h]
  simp only [joinWords, List.map_nil, List.flatten_nil, List.append_nil, ht]
  have hne : s.toList.isEmpty = false := by simp [hs]
  rw [hne, if_neg (by simp), String.ofList_toList]

/-- The stems are exactly the texts the stem rule keeps. -/
theorem isStem_iff (s : String) : IsStem s ↔ sanitize s = s :=
  ⟨sanitize_of_isStem, fun h => h ▸ sanitize_isStem s⟩

/-! ### Tries -/

/-- The digits a try appends to the stem: none on the first try, the try's number after. -/
def tryDigits (n : Nat) : List Char := if n + 1 > 1 then Nat.toDigits 10 (n + 1) else []

theorem candidate_toList (s : String) (n : Nat) :
    (candidate s (n + 1)).toList = '_' :: (s.toList ++ tryDigits n) := by
  unfold candidate tryDigits
  split
  · simp [String.toList_append, Nat.toList_repr]
  · simp

theorem isDigit_of_mem_tryDigits {n : Nat} {c : Char} (h : c ∈ tryDigits n) :
    c.isDigit = true := by
  unfold tryDigits at h
  split at h
  · exact Nat.isDigit_of_mem_toDigits (by omega) (by omega) h
  · simp at h

/-- Every try of a stem is an identifier name. -/
theorem isIdentifier_candidate {s : String} (h : IsStem s) (n : Nat) :
    isIdentifier (candidate s (n + 1)) = true := by
  rw [isIdentifier, candidate_toList]
  simp only [List.all_eq_true, List.mem_append, Bool.and_eq_true]
  refine ⟨by decide, ?_⟩
  rintro c (hc | hc)
  · exact isWordChar_iff.mpr (h.chars c hc)
  · exact isWordChar_of_isDigit (isDigit_of_mem_tryDigits hc)

/-- A run of elements that pass `p`, then one that does not: the run is what
`takeWhile p` takes and the rest is what `dropWhile p` leaves. -/
theorem split_digit_run {p : Char → Bool} :
    ∀ {x y : List Char}, (∀ c ∈ x, p c = true) → (∀ c ∈ y.head?, p c = false) →
      (x ++ y).takeWhile p = x ∧ (x ++ y).dropWhile p = y
  | [], [], _, _ => by simp
  | [], d :: ds, _, hy => by
    have : p d = false := hy d (by simp)
    simp [this]
  | c :: cs, y, hx, hy => by
    have hc : p c = true := hx c List.mem_cons_self
    have ih := split_digit_run (fun d hd => hx d (List.mem_cons_of_mem _ hd)) hy
    simp [hc, ih.1, ih.2]

/-- Text that does not end in a digit, then digits: both parts can be read back. -/
theorem append_digits_inj {a b d e : List Char}
    (ha : ∀ c ∈ a.getLast?, c.isDigit = false) (hb : ∀ c ∈ b.getLast?, c.isDigit = false)
    (hd : ∀ c ∈ d, c.isDigit = true) (he : ∀ c ∈ e, c.isDigit = true)
    (h : a ++ d = b ++ e) : a = b ∧ d = e := by
  have hr : d.reverse ++ a.reverse = e.reverse ++ b.reverse := by
    rw [← List.reverse_append, h, List.reverse_append]
  have h1 := @split_digit_run Char.isDigit d.reverse a.reverse
    (by simpa using hd) (by simpa using ha)
  have h2 := @split_digit_run Char.isDigit e.reverse b.reverse
    (by simpa using he) (by simpa using hb)
  rw [hr] at h1
  rw [h1.1] at h2
  rw [h1.2] at h2
  exact ⟨List.reverse_inj.mp h2.2, List.reverse_inj.mp h2.1⟩

/-- The number a list of decimal digits spells. -/
def digitValue (cs : List Char) : Nat := cs.foldl (fun acc c => acc * 10 + (c.toNat - 48)) 0

/-- The decimal digits of a number spell it. -/
theorem digitValue_toDigits (n : Nat) : digitValue (Nat.toDigits 10 n) = n := by
  induction n using Nat.strongRecOn with
  | ind n ih =>
    rw [Nat.toDigits_eq_if (by decide)]
    split
    · simp [digitValue, Nat.toNat_digitChar_sub_48_of_lt_ten ‹n < 10›]
    · rw [digitValue, List.foldl_append, ← digitValue, ih (n / 10) (by omega)]
      simp only [List.foldl_cons, List.foldl_nil]
      rw [Nat.toNat_digitChar_sub_48_of_lt_ten (Nat.mod_lt n (by decide))]
      omega

/-- Different tries append different digits. -/
theorem tryDigits_inj {m n : Nat} (h : tryDigits m = tryDigits n) : m = n := by
  unfold tryDigits at h
  split at h <;> split at h
  · have := congrArg digitValue h
    rw [digitValue_toDigits, digitValue_toDigits] at this
    omega
  · exact absurd h Nat.toDigits_ne_nil
  · exact absurd h.symm Nat.toDigits_ne_nil
  · omega

/-- Tries of stems name the stem and the try. -/
theorem candidate_inj {s t : String} (hs : IsStem s) (ht : IsStem t) (m n : Nat) :
    candidate s (m + 1) = candidate t (n + 1) ↔ s = t ∧ m = n := by
  constructor
  · intro h
    have h' := congrArg String.toList h
    rw [candidate_toList, candidate_toList, List.cons.injEq] at h'
    obtain ⟨h1, h2⟩ := append_digits_inj hs.last ht.last
      (fun _ hc => isDigit_of_mem_tryDigits hc) (fun _ hc => isDigit_of_mem_tryDigits hc) h'.2
    exact ⟨String.toList_inj.mp h1, tryDigits_inj h2⟩
  · rintro ⟨rfl, rfl⟩
    rfl

/-- The stem rule gives stems, keeps stems as they are, and the tries built on its stems
are identifier names that tell stem and try apart. -/
theorem sanitize_stem_laws (hint : String) :
    IsStem (sanitize hint) ∧ sanitize (sanitize hint) = sanitize hint ∧
      (∀ s, IsStem s ↔ sanitize s = s) ∧
      (∀ n, isIdentifier (candidate (sanitize hint) (n + 1)) = true) ∧
      ∀ other m n, candidate (sanitize hint) (m + 1) = candidate (sanitize other) (n + 1) ↔
        sanitize hint = sanitize other ∧ m = n :=
  ⟨sanitize_isStem hint, sanitize_of_isStem (sanitize_isStem hint), isStem_iff,
    isIdentifier_candidate (sanitize_isStem hint),
    fun other m n => candidate_inj (sanitize_isStem hint) (sanitize_isStem other) m n⟩

end SignalSugar.Name
