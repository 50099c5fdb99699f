import Torpedo.Util.ByteBuffer
import Torpedo.Util.Cidr
import Mathlib.Tactic.Push

/-!
# Texts of separated pieces

A grammar of so many pieces with a separator between each two of them, and a reader that cuts a text at the
separators and reads each of the pieces. The reader does not see separators at the end of the text.
-/

namespace Torpedo

variable {sep : Char} {count : ℕ} {IsPiece Reads Odd : List Char → Prop} {text : List Char}

/-- So many pieces with a separator between each two of them. -/
def Separated (sep : Char) (count : ℕ) (IsPiece : List Char → Prop) (text : List Char) : Prop :=
  ∃ pieces : List (List Char), pieces.length = count ∧ (∀ p ∈ pieces, IsPiece p) ∧
    text = [sep].intercalate pieces

/-- The text is cut into so many pieces that are read. -/
def Cut (sep : Char) (count : ℕ) (Reads : List Char → Prop) (text : List Char) : Prop :=
  (splitPieces sep text).length = count ∧ ∀ p ∈ splitPieces sep text, Reads p

theorem intercalate_append_singleton {pieces : List (List Char)} (hne : pieces ≠ []) (piece : List Char) :
    [sep].intercalate (pieces ++ [piece]) = [sep].intercalate pieces ++ sep :: piece := by
  induction pieces with
  | nil => exact absurd rfl hne
  | cons p pieces ih =>
    cases pieces with
    | nil => simp
    | cons q pieces =>
      have htail := ih (List.cons_ne_nil q pieces)
      simp only [List.cons_append, List.intercalate_cons_cons, List.append_assoc] at htail ⊢
      rw [htail]

/-- The end of a text is that of its last piece. -/
theorem getLast?_intercalate (pieces : List (List Char)) {piece : List Char} (hne : piece ≠ []) :
    ([sep].intercalate (pieces ++ [piece])).getLast? = piece.getLast? := by
  by_cases hpieces : pieces = []
  · simp [hpieces]
  · rw [intercalate_append_singleton hpieces, List.getLast?_append, List.getLast?_cons]
    obtain ⟨c, hc⟩ := Option.ne_none_iff_exists'.1 (mt List.getLast?_eq_none_iff.1 hne)
    simp [hc]

theorem intercalate_splitPieces (h : text.getLast? ≠ some sep) :
    [sep].intercalate (splitPieces sep text) = text := by
  unfold splitPieces
  split_ifs with hmem
  · obtain ⟨pieces, piece, hsplit⟩ : ∃ pieces piece, text.splitOn sep = pieces ++ [piece] :=
      ⟨_, _, (List.dropLast_concat_getLast (List.splitOn_ne_nil sep text)).symm⟩
    have htext : [sep].intercalate (pieces ++ [piece]) = text := hsplit ▸ List.intercalate_splitOn sep
    have hpiece : piece ≠ [] := by
      rintro rfl
      by_cases hpieces : pieces = []
      · -- a text without a separator
        rw [hpieces] at htext
        exact absurd (htext ▸ hmem) (by simp)
      · rw [intercalate_append_singleton hpieces] at htext
        exact h (htext ▸ List.getLast?_concat)
    have hempty : piece.isEmpty = false := by simp [hpiece]
    rw [hsplit, List.reverse_append, List.reverse_singleton, List.singleton_append,
      List.dropWhile_cons_of_neg (by simp [hempty]), List.reverse_cons, List.reverse_reverse, htext]
  · exact List.intercalate_singleton

/-- A text of the grammar is cut into its pieces, and ends with the last of them. -/
theorem separated_iff (hsep : ∀ p, IsPiece p → sep ∉ p ∧ p ≠ []) (hcount : 0 < count) :
    Separated sep count IsPiece text ↔ Cut sep count IsPiece text ∧ text.getLast? ≠ some sep := by
  constructor
  · rintro ⟨pieces, rfl, hall, rfl⟩
    obtain ⟨init, last, rfl⟩ : ∃ init last, pieces = init ++ [last] :=
      ⟨_, _, (List.dropLast_concat_getLast (List.ne_nil_of_length_pos hcount)).symm⟩
    have hlast := hsep last (hall last (by simp))
    have hsplit : splitPieces sep ([sep].intercalate (init ++ [last])) = init ++ [last] :=
      splitPieces_intercalate init (fun p hp => (hsep p (hall p hp)).1) hlast.2
    refine ⟨⟨congrArg List.length hsplit, hsplit.symm ▸ hall⟩, fun hend => ?_⟩
    rw [getLast?_intercalate init hlast.2] at hend
    exact hlast.1 (List.mem_of_getLast? hend)
  · rintro ⟨⟨hlength, hall⟩, hend⟩
    exact ⟨_, hlength, hall, (intercalate_splitPieces hend).symm⟩

/-- The reader takes the texts of the grammar and no others, unless it takes one that ends with a separator, or
one with a piece that is read and none of the grammar. -/
theorem cut_iff_separated_iff (hsep : ∀ p, IsPiece p → sep ∉ p ∧ p ≠ []) (hcount : 0 < count)
    (hpiece : ∀ p, IsPiece p ↔ Reads p ∧ ¬Odd p) :
    (Cut sep count Reads text ↔ Separated sep count IsPiece text) ↔
      ¬(Cut sep count Reads text ∧ (text.getLast? = some sep ∨ ∃ p ∈ splitPieces sep text, Odd p)) := by
  have hgrammar : Separated sep count IsPiece text ↔ Cut sep count Reads text ∧
      ¬(text.getLast? = some sep ∨ ∃ p ∈ splitPieces sep text, Odd p) := by
    rw [separated_iff hsep hcount]
    unfold Cut
    simp only [hpiece]
    push Not
    constructor
    · rintro ⟨⟨hlength, hall⟩, hend⟩
      exact ⟨⟨hlength, fun p hp => (hall p hp).1⟩, hend, fun p hp => (hall p hp).2⟩
    · rintro ⟨⟨hlength, hall⟩, hend, hodd⟩
      exact ⟨⟨hlength, fun p hp => ⟨hall p hp, hodd p hp⟩⟩, hend⟩
  rw [hgrammar, iff_self_and, not_and]

/-! ## Readers of each piece -/

section

variable {α β γ : Type} {f : α → Option β}

theorem mapM_orThrow_ok_iff {g : β → γ} {l : List α} :
    (∃ cs, (l.mapM fun a => do return g (← orThrow (f a)) : Except Stop (List γ)) = .ok cs) ↔
      ∀ a ∈ l, ∃ b, f a = some b := by
  induction l with
  | nil => exact iff_of_true ⟨[], rfl⟩ nofun
  | cons a l ih =>
    rw [List.forall_mem_cons, ← ih, List.mapM_cons]
    cases f a with
    | none => exact iff_of_false nofun nofun
    | some b =>
      refine Iff.trans ?_ (and_iff_right ⟨b, rfl⟩).symm
      cases (l.mapM fun a => do return g (← orThrow (f a)) : Except Stop (List γ)) with
      | error stop => exact iff_of_false nofun nofun
      | ok cs => exact iff_of_true ⟨_, rfl⟩ ⟨_, rfl⟩

theorem foldlM_orThrow_ok_iff {g : γ → α → β → γ} {l : List α} {c : γ} :
    (∃ c', (l.foldlM (fun c a => do return g c a (← orThrow (f a))) c : Except Stop γ) = .ok c') ↔
      ∀ a ∈ l, ∃ b, f a = some b := by
  induction l generalizing c with
  | nil => exact iff_of_true ⟨c, rfl⟩ nofun
  | cons a l ih =>
    rw [List.forall_mem_cons, List.foldlM_cons]
    cases f a with
    | none => exact iff_of_false nofun nofun
    | some b =>
      exact ih.trans (and_iff_right ⟨b, rfl⟩).symm

end

end Torpedo
