import VectorIcons.Proofs.Text.Lines
import VectorIcons.Text.Quoted

/-!
# Reading quoted text back

A quoted text tells where it ends and which text it is, whatever follows it: `quoted_append_inj`.

Characters between the quotes are written in three ways (`Spells`), and the first two characters
of each tell which: a plain character is neither a quote nor a backslash, a letter follows a
backslash, and `u` is the letter of a number.  So no spelling begins another one, and none begins
with a quote.  The digits of a number end before the brace, which is no digit.
-/

namespace VectorIcons
namespace Text

/-! ## Parts that end before a mark -/

section Marks

variable {α : Type} (isMark : α → Bool)

/-- Nothing unmarked is left over where a mark comes next. -/
theorem eq_nil_of_mark_head? {extra rest : List α} (hextra : ∀ x ∈ extra, isMark x = false)
    (hmark : ∀ x ∈ (extra ++ rest).head?, isMark x = true) : extra = [] := by
  cases extra with
  | nil => rfl
  | cons x extra =>
      have hmarked := hmark x rfl
      rw [hextra x List.mem_cons_self] at hmarked
      cases hmarked

/-- Parts without marks end at the same place if a mark follows each of them, or nothing. -/
theorem append_inj_of_marks {first second rest other : List α}
    (hfirst : ∀ x ∈ first, isMark x = false) (hsecond : ∀ x ∈ second, isMark x = false)
    (hrest : ∀ x ∈ rest.head?, isMark x = true) (hother : ∀ x ∈ other.head?, isMark x = true)
    (hsame : first ++ rest = second ++ other) : first = second ∧ rest = other := by
  -- The longer part would go on with what follows the shorter one, which is a mark.
  rcases List.append_eq_append_iff.mp hsame with ⟨extra, rfl, rfl⟩ | ⟨extra, rfl, rfl⟩
  · obtain rfl := eq_nil_of_mark_head? isMark
      (fun x hx => hsecond x (List.mem_append_right _ hx)) hrest
    exact ⟨(List.append_nil _).symm, rfl⟩
  · obtain rfl := eq_nil_of_mark_head? isMark
      (fun x hx => hfirst x (List.mem_append_right _ hx)) hother
    exact ⟨List.append_nil _, rfl⟩

end Marks

/-! ## Digits -/

theorem exists_digit_of_mem_toDigits {base n : Nat} {character : Char} (hbase : 1 < base)
    (hmem : character ∈ Nat.toDigits base n) : ∃ digit < base, character = digit.digitChar := by
  induction n using Nat.base_induction base hbase with
  | single n hn =>
      rw [Nat.toDigits_of_lt_base hn, List.mem_singleton] at hmem
      exact ⟨n, hn, hmem⟩
  | digit n last hlast hn ih =>
      rw [← Nat.toDigits_append_toDigits hbase hn hlast, List.mem_append,
        Nat.toDigits_of_lt_base hlast, List.mem_singleton] at hmem
      rcases hmem with hmem | rfl
      · exact ih hmem
      · exact ⟨last, hlast, rfl⟩

theorem not_mem_toDigits {base n : Nat} {character : Char} (hbase : 1 < base) (hle : base ≤ 16)
    (hother : ∀ digit : Fin 16, character ≠ Nat.digitChar digit) :
    character ∉ Nat.toDigits base n := by
  intro hmem
  obtain ⟨digit, hdigit, heq⟩ := exists_digit_of_mem_toDigits hbase hmem
  exact hother ⟨digit, Nat.lt_of_lt_of_le hdigit hle⟩ heq

theorem digitChar_inj {first second : Nat} (hfirst : first < 16) (hsecond : second < 16)
    (hsame : first.digitChar = second.digitChar) : first = second := by
  have hall : ∀ one other : Fin 16, Nat.digitChar one = Nat.digitChar other → one = other := by
    decide
  exact congrArg Fin.val (hall ⟨first, hfirst⟩ ⟨second, hsecond⟩ hsame)

/-- Digits in front of the last one are not missing. -/
theorem toDigits_concat_ne_singleton {base n : Nat} (last character : Char) :
    Nat.toDigits base n ++ [last] ≠ [character] := by
  intro hsame
  have hlength := congrArg List.length hsame
  have hpos : 0 < (Nat.toDigits base n).length := Nat.length_toDigits_pos
  rw [List.length_append, List.length_singleton, List.length_singleton] at hlength
  omega

/-- Digits tell the number. -/
theorem toDigits_injective {base : Nat} (hbase : 1 < base) (hle : base ≤ 16) :
    Function.Injective (Nat.toDigits base) := by
  intro n
  induction n using Nat.base_induction base hbase with
  | single n hn =>
      intro other hsame
      rw [Nat.toDigits_of_lt_base hn] at hsame
      rcases Nat.lt_or_ge other base with hlt | hge
      · rw [Nat.toDigits_of_lt_base hlt] at hsame
        exact digitChar_inj (by omega) (by omega) (List.cons.inj hsame).1
      · rw [Nat.toDigits_of_base_le hbase hge] at hsame
        exact absurd hsame.symm (toDigits_concat_ne_singleton _ _)
  | digit n last hlast hn ih =>
      intro other hsame
      rw [← Nat.toDigits_append_toDigits hbase hn hlast, Nat.toDigits_of_lt_base hlast] at hsame
      rcases Nat.lt_or_ge other base with hlt | hge
      · rw [Nat.toDigits_of_lt_base hlt] at hsame
        exact absurd hsame (toDigits_concat_ne_singleton _ _)
      · rw [Nat.toDigits_of_base_le hbase hge] at hsame
        obtain ⟨hfront, hback⟩ := List.append_inj' hsame rfl
        have hbelow : other % base < base := Nat.mod_lt _ (by omega)
        have hlastSame : last = other % base :=
          digitChar_inj (by omega) (by omega) (List.cons.inj hback).1
        rw [ih hfront, hlastSame, Nat.div_add_mod]

/-- Runs of characters end at the same place if the same character follows, which is in neither of
them. -/
theorem append_cons_inj {stop : Char} {first second rest other : List Char}
    (hfirst : stop ∉ first) (hsecond : stop ∉ second)
    (hsame : first ++ stop :: rest = second ++ stop :: other) : first = second ∧ rest = other := by
  have hunmarked {run : List Char} (hrun : stop ∉ run) : ∀ c ∈ run, (c == stop) = false :=
    fun c hc => beq_eq_false_iff_ne.mpr (ne_of_mem_of_not_mem hc hrun)
  have hmarked (behind : List Char) : ∀ c ∈ (stop :: behind).head?, (c == stop) = true :=
    fun c hc => beq_iff_eq.mpr (Option.some.inj hc).symm
  obtain ⟨hruns, hrests⟩ := append_inj_of_marks (· == stop) (hunmarked hfirst)
    (hunmarked hsecond) (hmarked rest) (hmarked other) hsame
  exact ⟨hruns, (List.cons.inj hrests).2⟩

/-- The digits of a number, up to a character that is no digit, tell the number. -/
theorem toDigits_append_inj {base n m : Nat} {stop : Char} {rest other : List Char}
    (hbase : 1 < base) (hle : base ≤ 16) (hstop : ∀ digit : Fin 16, stop ≠ Nat.digitChar digit)
    (hsame : Nat.toDigits base n ++ stop :: rest = Nat.toDigits base m ++ stop :: other) :
    n = m ∧ rest = other := by
  obtain ⟨hdigits, hrests⟩ := append_cons_inj (not_mem_toDigits hbase hle hstop)
    (not_mem_toDigits hbase hle hstop) hsame
  exact ⟨toDigits_injective hbase hle hdigits, hrests⟩

/-! ## Spellings -/

/-- The characters that are written as a backslash and a letter, with their letters. -/
def escapeLetters : List (Char × Char) :=
  [('"', '"'), ('\\', '\\'), ('\t', 't'), ('\r', 'r'), ('\n', 'n'), ('\x00', '0')]

/-- How a character may be written between quotes. -/
inductive Spells : Char → List Char → Prop
  | plain {c : Char} (hquote : c ≠ '"') (hbackslash : c ≠ '\\') (hbreak : c ≠ '\n') : Spells c [c]
  | letter {c letter : Char} (hmem : (c, letter) ∈ escapeLetters) : Spells c ['\\', letter]
  | number (c : Char) : Spells c (numberedEscape c)

theorem spells_escape (c : Char) : Spells c (escape c) := by
  unfold escape
  by_cases hquote : c = '"'
  · rw [if_pos hquote, hquote]
    exact .letter (by decide)
  rw [if_neg hquote]
  by_cases hbackslash : c = '\\'
  · rw [if_pos hbackslash, hbackslash]
    exact .letter (by decide)
  rw [if_neg hbackslash]
  by_cases htab : c = '\t'
  · rw [if_pos htab, htab]
    exact .letter (by decide)
  rw [if_neg htab]
  by_cases hreturn : c = '\r'
  · rw [if_pos hreturn, hreturn]
    exact .letter (by decide)
  rw [if_neg hreturn]
  by_cases hbreak : c = '\n'
  · rw [if_pos hbreak, hbreak]
    exact .letter (by decide)
  rw [if_neg hbreak]
  by_cases hzero : c.toNat = 0
  · rw [if_pos hzero, Char.toNat_inj.mp (hzero.trans rfl : c.toNat = ('\x00' : Char).toNat)]
    exact .letter (by decide)
  rw [if_neg hzero]
  -- Which of the others are written as numbers does not matter: either way they can be told apart.
  split
  · exact .number c
  · exact .plain hquote hbackslash hbreak

theorem numberedEscape_append (c : Char) (rest : List Char) :
    numberedEscape c ++ rest =
      '\\' :: 'u' :: '\x7b' :: (Nat.toDigits 16 c.toNat ++ '\x7d' :: rest) := by
  simp [numberedEscape]

namespace Spells

variable {c d : Char} {spelling other rest behind : List Char}

/-- No spelling is the beginning of another one. -/
theorem append_inj (hspells : Spells c spelling) (hother : Spells d other)
    (hsame : spelling ++ rest = other ++ behind) : c = d ∧ rest = behind := by
  have hletters : ∀ one ∈ escapeLetters, ∀ two ∈ escapeLetters, one.2 = two.2 → one.1 = two.1 := by
    decide
  have hnumber : ∀ one ∈ escapeLetters, one.2 ≠ 'u' := by decide
  cases hspells with
  | plain _ hbackslash =>
      cases hother with
      | plain => exact List.cons.inj hsame
      | letter => exact absurd (List.cons.inj hsame).1 hbackslash
      | number => exact absurd (List.cons.inj hsame).1 hbackslash
  | letter hmem =>
      cases hother with
      | plain _ hbackslash => exact absurd (List.cons.inj hsame).1.symm hbackslash
      | letter hmemOther =>
          obtain ⟨hletter, hrests⟩ := List.cons.inj (List.cons.inj hsame).2
          exact ⟨hletters _ hmem _ hmemOther hletter, hrests⟩
      | number =>
          rw [numberedEscape_append] at hsame
          exact absurd (List.cons.inj (List.cons.inj hsame).2).1 (hnumber _ hmem)
  | number =>
      rw [numberedEscape_append] at hsame
      cases hother with
      | plain _ hbackslash => exact absurd (List.cons.inj hsame).1.symm hbackslash
      | letter hmemOther =>
          exact absurd (List.cons.inj (List.cons.inj hsame).2).1.symm (hnumber _ hmemOther)
      | number =>
          rw [numberedEscape_append] at hsame
          have hbehind := (List.cons.inj (List.cons.inj (List.cons.inj hsame).2).2).2
          obtain ⟨hcode, hrests⟩ :=
            toDigits_append_inj (by decide) (by decide) (by decide) hbehind
          exact ⟨Char.toNat_inj.mp hcode, hrests⟩

/-- No spelling begins with a quote. -/
theorem ne_quote_cons (hspells : Spells c spelling) : spelling ++ rest ≠ '"' :: behind := by
  intro hsame
  cases hspells with
  | plain hquote => exact hquote (List.cons.inj hsame).1
  | letter => exact absurd (List.cons.inj hsame).1 (by decide)
  | number =>
      rw [numberedEscape_append] at hsame
      exact absurd (List.cons.inj hsame).1 (by decide)

/-- No spelling has a line break. -/
theorem not_mem_break (hspells : Spells c spelling) : '\n' ∉ spelling := by
  cases hspells with
  | plain _ _ hbreak => exact fun hmem => hbreak (List.mem_singleton.mp hmem).symm
  | letter hmem =>
      have hletters : ∀ one ∈ escapeLetters, '\n' ∉ ['\\', one.2] := by decide
      exact hletters _ hmem
  | number =>
      have hdigits : '\n' ∉ Nat.toDigits 16 c.toNat :=
        not_mem_toDigits (by decide) (by decide) (by decide)
      simp [numberedEscape, hdigits]

end Spells

/-! ## Quoted texts -/

theorem toList_quoted_append (text : String) (rest : List Char) :
    (quoted text).toList ++ rest = '"' :: (text.toList.flatMap escape ++ '"' :: rest) := by
  simp [quoted]

theorem flatMap_escape_append_inj {first second rest other : List Char}
    (hsame : first.flatMap escape ++ '"' :: rest = second.flatMap escape ++ '"' :: other) :
    first = second ∧ rest = other := by
  induction first generalizing second with
  | nil =>
      cases second with
      | nil => exact ⟨rfl, (List.cons.inj hsame).2⟩
      | cons d second =>
          rw [List.flatMap_cons, List.append_assoc] at hsame
          exact absurd hsame.symm (spells_escape d).ne_quote_cons
  | cons c first ih =>
      rw [List.flatMap_cons, List.append_assoc] at hsame
      cases second with
      | nil => exact absurd hsame (spells_escape c).ne_quote_cons
      | cons d second =>
          rw [List.flatMap_cons, List.append_assoc] at hsame
          obtain ⟨rfl, hbehind⟩ := (spells_escape c).append_inj (spells_escape d) hsame
          obtain ⟨rfl, hrests⟩ := ih hbehind
          exact ⟨rfl, hrests⟩

/-- **A quoted text is read back, whatever follows it.** -/
theorem quoted_append_inj {first second : String} {rest other : List Char}
    (hsame : (quoted first).toList ++ rest = (quoted second).toList ++ other) :
    first = second ∧ rest = other := by
  rw [toList_quoted_append, toList_quoted_append] at hsame
  obtain ⟨hcharacters, hrests⟩ := flatMap_escape_append_inj (List.cons.inj hsame).2
  exact ⟨String.toList_inj.mp hcharacters, hrests⟩

theorem oneLine_quoted (text : String) : OneLine (quoted text) := by
  have hcharacters : '\n' ∉ text.toList.flatMap escape := by
    intro hmem
    obtain ⟨c, -, hbreak⟩ := List.mem_flatMap.mp hmem
    exact (spells_escape c).not_mem_break hbreak
  simp [OneLine, quoted, hcharacters]

/-- The line break does not break the line, and the inner quote does not end the text. -/
example : quoted "a\"\nICON" = "\"a\\\"\\nICON\"" := by decide

end Text
end VectorIcons
