import Mathlib.Data.Bool.AllAny
import Mathlib.Data.List.TakeWhile
import Torpedo.StorageManager.RoundTrip
import Torpedo.Util.JsonText

/-!
# Texts without dots

The text forms of the storage write out the dots of a text before it is read. The names and the strings are then
read with their dots written out, where these stand in the text, and a number with a dot is none.
-/

namespace Torpedo

open JsonText StorageConverter

/-- The text with its dots written out. -/
def dotless (cs : List Char) : List Char := cs.flatMap fun c => if c = '.' then dotString.toList else [c]

@[simp] theorem dotless_nil : dotless [] = [] := rfl

theorem dotless_cons (c : Char) (cs : List Char) :
    dotless (c :: cs) = (if c = '.' then dotString.toList else [c]) ++ dotless cs := rfl

@[simp] theorem dotless_dot (cs : List Char) : dotless ('.' :: cs) = dotString.toList ++ dotless cs := rfl

@[simp] theorem dotless_cons_of_ne {c : Char} (h : c ≠ '.') (cs : List Char) : dotless (c :: cs) = c :: dotless cs := by
  rw [dotless_cons, if_neg h]
  rfl

theorem dotless_append (cs cs' : List Char) : dotless (cs ++ cs') = dotless cs ++ dotless cs' := by
  simp [dotless]

theorem dotless_eq_self {cs : List Char} (h : '.' ∉ cs) : dotless cs = cs := replaceDot_eq_self (.inr h)

theorem dot_notMem_dotless (cs : List Char) : '.' ∉ dotless cs := dot_notMem_replaceDot cs

theorem replaceDotToDotUtf_eq (s : String) : replaceDotToDotUtf s = String.ofList (dotless s.toList) := rfl

/-! ## Strings -/

namespace JsonText

def Piece.isDot : Piece → Bool
  | character c => c = '.'
  | escaped _ => false

/-- A piece with its dot written out. -/
def Piece.dotless (p : Piece) : List Piece := if p.isDot then dotString.toList.map character else [p]

theorem ne_dot_of_hexUnit {a b c d : Char} {n : ℕ} (h : hexUnit a b c d = some n) :
    a ≠ '.' ∧ b ≠ '.' ∧ c ≠ '.' ∧ d ≠ '.' := by
  obtain ⟨a', ha, h⟩ := Option.bind_eq_some_iff.1 h
  obtain ⟨b', hb, h⟩ := Option.bind_eq_some_iff.1 h
  obtain ⟨c', hc, h⟩ := Option.bind_eq_some_iff.1 h
  obtain ⟨d', hd, -⟩ := Option.bind_eq_some_iff.1 h
  refine ⟨?_, ?_, ?_, ?_⟩ <;> rintro rfl <;> contradiction

theorem ne_of_shortEscape {c : Char} {n : ℕ} (h : shortEscape c = some n) : c ≠ '.' ∧ c ≠ 'u' := by
  constructor <;> rintro rfl <;> contradiction

theorem pieces_escape {c : Char} (h : c ≠ 'u') (cs : List Char) : pieces ('\\' :: c :: cs) = (do
    let unit ← shortEscape c
    return .escaped unit :: (← pieces cs)) := by
  rw [pieces.eq_2]
  intro a b c' d cs' hc
  exact absurd hc h

theorem pieces_character {c : Char} (h : c ≠ '\\') (hcontrol : 32 ≤ c.toNat) (cs : List Char) :
    pieces (c :: cs) = (pieces cs).map (.character c :: ·) := by
  rw [pieces.eq_3, if_neg (by simp [h, Nat.not_lt.2 hcontrol])]
  · cases pieces cs <;> rfl
  · intro a b c' d cs' hc
    exact absurd hc h
  · intro c' cs' hc
    exact absurd hc h

theorem pieces_characters {cs : List Char} (h : ∀ c ∈ cs, c ≠ '\\' ∧ 32 ≤ c.toNat) (rest : List Char) :
    pieces (cs ++ rest) = (pieces rest).map (cs.map Piece.character ++ ·) := by
  induction cs with
  | nil => simp
  | cons c cs ih =>
    obtain ⟨hc, hcs⟩ := List.forall_mem_cons.1 h
    rw [List.cons_append, pieces_character hc.1 hc.2, ih hcs, Option.map_map]
    rfl

/-- The pieces of a string whose dots are written out. An escape holds no dot that stands in the text. -/
theorem pieces_dotless {cs : List Char} {ps : List Piece} (h : pieces cs = some ps) :
    pieces (Torpedo.dotless cs) = some (ps.flatMap Piece.dotless) ∧ ps.countP Piece.isDot = cs.count '.' := by
  induction cs using pieces.induct generalizing ps with
  | case1 a b c d cs ih =>
    obtain ⟨unit, hunit, h⟩ := Option.bind_eq_some_iff.1 h
    obtain ⟨ps', hps, h⟩ := Option.bind_eq_some_iff.1 h
    cases h
    obtain ⟨hpieces, hcount⟩ := ih hps
    obtain ⟨ha, hb, hc, hd⟩ := ne_dot_of_hexUnit hunit
    constructor
    · simp [ha, hb, hc, hd, pieces, hunit, hpieces, Piece.dotless, Piece.isDot]
    · simp [ha, hb, hc, hd, hcount, Piece.isDot]
  | case2 c cs hnot ih =>
    rw [pieces.eq_2 _ _ hnot] at h
    obtain ⟨unit, hunit, h⟩ := Option.bind_eq_some_iff.1 h
    obtain ⟨ps', hps, h⟩ := Option.bind_eq_some_iff.1 h
    cases h
    obtain ⟨hpieces, hcount⟩ := ih hps
    obtain ⟨hdot, hu⟩ := ne_of_shortEscape hunit
    constructor
    · simp [hdot, pieces_escape hu, hunit, hpieces, Piece.dotless, Piece.isDot]
    · simp [hdot, hcount, Piece.isDot]
  | case3 c cs hnot hnot' hc =>
    rw [pieces.eq_3 _ _ hnot hnot', if_pos hc] at h
    exact nomatch h
  | case4 c cs hnot hnot' hc ih =>
    rw [pieces.eq_3 _ _ hnot hnot', if_neg hc] at h
    obtain ⟨ps', hps, h⟩ := Option.bind_eq_some_iff.1 h
    cases h
    obtain ⟨hpieces, hcount⟩ := ih hps
    rw [not_or, Nat.not_lt] at hc
    by_cases hdot : c = '.'
    · subst hdot
      constructor
      · rw [dotless_dot, pieces_characters (List.all_iff_forall_prop.1 (by decide)), hpieces]
        rfl
      · simp [hcount, Piece.isDot]
    · constructor
      · simp [hdot, pieces_character hc.1 hc.2, hpieces, Piece.dotless, Piece.isDot]
      · simp [hdot, hcount, Piece.isDot]
  | case5 =>
    cases h
    exact ⟨rfl, rfl⟩

theorem join_characters (cs : List Char) (ps : List Piece) :
    join (cs.map Piece.character ++ ps) = (join ps).map (cs ++ ·) := by
  induction cs with
  | nil => simp
  | cons c cs ih =>
    rw [List.map_cons, List.cons_append, join, ih, Option.map_map]
    rfl

/-- The characters of pieces whose dots are written out. Only the dots of escapes are left. -/
theorem join_dotless {ps : List Piece} {cs : List Char} (h : join ps = some cs) :
    ∃ cs', join (ps.flatMap Piece.dotless) = some cs' ∧ Torpedo.dotless cs' = Torpedo.dotless cs ∧
      cs'.length = cs.length + 5 * ps.countP Piece.isDot := by
  induction ps using join.induct generalizing cs with
  | case1 =>
    cases h
    exact ⟨[], rfl, rfl, rfl⟩
  | case2 c ps ih =>
    obtain ⟨rest, hrest, rfl⟩ := Option.map_eq_some_iff.1 h
    obtain ⟨rest', hrest', hsame, hlength⟩ := ih hrest
    by_cases hdot : c = '.'
    · subst hdot
      refine ⟨dotString.toList ++ rest', ?_, ?_, ?_⟩
      · rw [List.flatMap_cons]
        exact (join_characters _ _).trans (congrArg _ hrest')
      · rw [dotless_append, dotless_dot, hsame]
        rfl
      · simp [Piece.isDot, hlength, dotString]
        omega
    · refine ⟨c :: rest', ?_, ?_, ?_⟩
      · simp [Piece.dotless, Piece.isDot, hdot, join, hrest']
      · simp [hdot, hsame]
      · simp [Piece.isDot, hdot, hlength]
        omega
  | case3 high hhigh low ps hlow ih =>
    obtain ⟨c, hjoin⟩ : ∃ c, ∀ ps, join (.escaped high :: .escaped low :: ps) = (join ps).map (c :: ·) := by
      refine ⟨Char.ofNat (0x10000 + (high - 0xD800) * 0x400 + (low - 0xDC00)), fun ps => ?_⟩
      simp [join, hhigh, hlow]
    rw [hjoin] at h
    obtain ⟨rest, hrest, rfl⟩ := Option.map_eq_some_iff.1 h
    obtain ⟨rest', hrest', hsame, hlength⟩ := ih hrest
    refine ⟨c :: rest', ?_, ?_, ?_⟩
    · rw [List.flatMap_cons, List.flatMap_cons]
      exact (hjoin _).trans (congrArg _ hrest')
    · rw [dotless_cons, dotless_cons, hsame]
    · simp [Piece.isDot, hlength]
      omega
  | case4 high hhigh low ps hlow =>
    rw [join, if_pos hhigh, if_neg hlow] at h
    exact nomatch h
  | case5 high ps hhigh hnot =>
    rw [join, if_pos hhigh] at h
    · exact nomatch h
    · exact hnot
  | case6 high ps hhigh hlow =>
    rw [join.eq_def] at h
    simp [hhigh, hlow] at h
  | case7 high ps hhigh hlow ih =>
    obtain ⟨c, hjoin⟩ : ∃ c, ∀ ps, join (.escaped high :: ps) = (join ps).map (c :: ·) := by
      refine ⟨Char.ofNat high, fun ps => ?_⟩
      rw [join.eq_def]
      simp [hhigh, hlow]
    rw [hjoin] at h
    obtain ⟨rest, hrest, rfl⟩ := Option.map_eq_some_iff.1 h
    obtain ⟨rest', hrest', hsame, hlength⟩ := ih hrest
    refine ⟨c :: rest', ?_, ?_, ?_⟩
    · rw [List.flatMap_cons]
      exact (hjoin _).trans (congrArg _ hrest')
    · rw [dotless_cons, dotless_cons, hsame]
    · simp [Piece.isDot, hlength]
      omega

/-- What a string says whose dots are written out. It is what the string says only if there were none. -/
theorem unescape_dotless {lexeme text : List Char} (h : unescape lexeme = .ok text) :
    ∃ text', unescape (Torpedo.dotless lexeme) = .ok text' ∧ Torpedo.dotless text' = Torpedo.dotless text ∧
      (text' = text ↔ '.' ∉ lexeme) := by
  unfold unescape at h
  cases hpieces : pieces lexeme with
  | none =>
    rw [hpieces] at h
    exact nomatch h
  | some ps =>
    cases hjoin : join ps with
    | none =>
      simp only [hpieces, hjoin] at h
      exact nomatch h
    | some cs =>
      simp only [hpieces, hjoin, Except.ok.injEq] at h
      subst h
      obtain ⟨hpieces', hcount⟩ := pieces_dotless hpieces
      obtain ⟨text', hjoin', hsame, hlength⟩ := join_dotless hjoin
      refine ⟨text', ?_, hsame, ?_, fun hdot => ?_⟩
      · unfold unescape
        simp only [hpieces', hjoin']
      · rintro rfl
        rw [hcount] at hlength
        exact List.count_eq_zero.1 (by omega)
      · rw [dotless_eq_self hdot, hpieces, Option.some.injEq] at hpieces'
        rw [← hpieces', hjoin] at hjoin'
        exact (Option.some.inj hjoin').symm

/-- A string with its dots written out. -/
def Written.dotless (w : Written) : Written where
  lexeme := Torpedo.dotless w.lexeme
  text := (unescape (Torpedo.dotless w.lexeme)).toOption.getD []
  unescape_eq := by
    obtain ⟨text', h, -⟩ := unescape_dotless w.unescape_eq
    rw [h]
    rfl

@[ext] theorem Written.ext {w w' : Written} (h : w.lexeme = w'.lexeme) : w = w' := by
  obtain ⟨lexeme, text, hw⟩ := w
  obtain ⟨lexeme', text', hw'⟩ := w'
  subst h
  cases hw.symm.trans hw'
  rfl

theorem Written.dotless_dotless_text (w : Written) :
    Torpedo.dotless w.dotless.text = Torpedo.dotless w.text := by
  obtain ⟨text', h, hsame, -⟩ := unescape_dotless w.unescape_eq
  rw [← hsame, Except.ok.inj (w.dotless.unescape_eq.symm.trans h)]

/-- The dots that are written out are those that stand in the text. -/
theorem Written.dotless_text_eq_iff (w : Written) : w.dotless.text = w.text ↔ '.' ∉ w.lexeme := by
  obtain ⟨text', h, -, hiff⟩ := unescape_dotless w.unescape_eq
  rw [Except.ok.inj (w.dotless.unescape_eq.symm.trans h), hiff]

/-! ## Words -/

theorem mem_digits {cs : List Char} {c : Char} (h : isDigits cs) (hc : c ∈ cs) : isDigit c := by
  simp only [isDigits, decide_eq_true_eq] at h
  exact List.all_eq_true.1 h.2 c hc

theorem notMem_withoutSign {cs : List Char} (h : 'U' ∉ withoutSign cs) : 'U' ∉ cs := by
  unfold withoutSign at h
  split at h
  · simpa using h
  · simpa using h
  · exact h

theorem notMem_of_isDigits {cs : List Char} (h : isDigits cs) : 'U' ∉ cs :=
  fun hU => absurd (mem_digits h hU) (by decide)

theorem notMem_of_isExponent {cs : List Char} (h : isExponent cs) : 'U' ∉ cs := by
  cases cs with
  | nil => exact List.not_mem_nil
  | cons c cs =>
    simp only [isExponent, decide_eq_true_eq] at h
    rw [List.mem_cons, not_or]
    refine ⟨?_, notMem_withoutSign (notMem_of_isDigits h.2)⟩
    rintro rfl
    exact absurd h.1 (by decide)

theorem notMem_of_digits {cs : List Char} (h : 'U' ∉ cs.dropWhile isDigit) : 'U' ∉ cs := by
  intro hU
  rw [← @List.takeWhile_append_dropWhile _ isDigit cs, List.mem_append] at hU
  obtain hU | hU := hU
  · exact absurd (List.mem_takeWhile_imp hU) (by decide)
  · exact h hU

theorem notMem_of_isFraction {cs : List Char} (h : isFraction cs) : 'U' ∉ cs := by
  unfold isFraction at h
  split at h
  · next cs =>
    rw [decide_eq_true_eq] at h
    rw [List.mem_cons, not_or]
    exact ⟨by decide, notMem_of_digits (notMem_of_isExponent h.2)⟩
  · exact notMem_of_isExponent h

/-- The letter that a written out dot begins with is in no number. -/
theorem notMem_of_isNumber {w : List Char} (h : isNumber w) : 'U' ∉ w := by
  have hunsigned : ∀ cs : List Char, isUnsigned cs → 'U' ∉ cs := by
    intro cs hcs
    simp only [isUnsigned, decide_eq_true_eq] at hcs
    exact notMem_of_digits (notMem_of_isFraction hcs.2)
  unfold isNumber at h
  split at h
  · next cs =>
    rw [List.mem_cons, not_or]
    exact ⟨by decide, hunsigned cs h⟩
  · exact hunsigned w h

theorem mem_dotless {cs : List Char} (h : '.' ∈ cs) : 'U' ∈ Torpedo.dotless cs :=
  List.mem_flatMap.2 ⟨'.', h, by decide⟩

/-- A word with a dot is none once the dot is written out. -/
theorem wordToken_dotless {w : List Char} (h : '.' ∈ w) : wordToken (Torpedo.dotless w) = none := by
  have hU := mem_dotless h
  have hnull : Torpedo.dotless w ≠ "null".toList := fun heq => absurd (heq ▸ hU) (by decide)
  have htrue : Torpedo.dotless w ≠ "true".toList := fun heq => absurd (heq ▸ hU) (by decide)
  have hfalse : Torpedo.dotless w ≠ "false".toList := fun heq => absurd (heq ▸ hU) (by decide)
  have hnumber : ¬isNumber (Torpedo.dotless w) := fun hnumber => notMem_of_isNumber hnumber hU
  unfold wordToken
  rw [if_neg hnull, if_neg htrue, if_neg hfalse, if_neg hnumber]

/-- Only numbers have dots. -/
theorem numbers_wordToken {w : List Char} {token : Token Written (List Char)} (h : wordToken w = some token) :
    (token.numbers = [] ∧ '.' ∉ w ∨ token.numbers = [w]) ∧ token.map Written.dotless Torpedo.dotless =
      if '.' ∈ w then .number (Torpedo.dotless w) else token := by
  unfold wordToken at h
  split_ifs at h with hnull htrue hfalse hnumber
  · subst hnull
    cases h
    exact ⟨.inl ⟨rfl, by decide⟩, rfl⟩
  · subst htrue
    cases h
    exact ⟨.inl ⟨rfl, by decide⟩, rfl⟩
  · subst hfalse
    cases h
    exact ⟨.inl ⟨rfl, by decide⟩, rfl⟩
  · cases h
    refine ⟨.inr rfl, ?_⟩
    split_ifs with hdot
    · rfl
    · exact congrArg Token.number (dotless_eq_self hdot)

/-! ## The reader -/

def Lexing.dotless : Lexing → Lexing
  | between => between
  | string lexeme escaped => string (Torpedo.dotless lexeme) escaped
  | word w => word (Torpedo.dotless w)

def Parser.dotless (p : Parser Written (List Char)) : Parser Written (List Char) :=
  p.map Written.dotless Torpedo.dotless

def Reader.dotless (s : Reader) : Reader := ⟨s.lexing.dotless, s.parser.dotless⟩

/-- A number that is read has a dot. -/
def Reader.Dotted (s : Reader) : Prop := ∃ n ∈ s.parser.numbers, '.' ∈ n

namespace Reader

variable {parser : Parser Written (List Char)} {token : Token Written (List Char)} {s : Reader}

theorem feed_dotless (h : feed token parser = .ok s) :
    feed (token.map Written.dotless Torpedo.dotless) parser.dotless = .ok s.dotless := by
  cases parser with
  | done members =>
    cases h
    rfl
  | inside expect stack =>
    obtain ⟨p, hfeed, rfl⟩ := feed_inside.1 h
    refine feed_inside.2 ⟨p.dotless, ?_, rfl⟩
    rw [feed_map, hfeed]
    rfl

/-- A mark brings no number. -/
theorem numbers_mark {m : Mark} (h : feed (.mark m) parser = .ok s) (n : List Char) :
    n ∈ s.parser.numbers ↔ n ∈ parser.numbers := by
  cases parser with
  | done members =>
    cases h
    rfl
  | inside expect stack =>
    obtain ⟨p, hp, rfl⟩ := feed_inside.1 h
    simpa [Token.numbers, Parser.numbers] using numbers_feed hp n

theorem start_dotless {c : Char} (h : start c parser = .ok s) : start c parser.dotless =
    .ok (if c = '.' then ⟨.word ['.'], parser.dotless⟩ else s.dotless) := by
  unfold start at h ⊢
  by_cases hdot : c = '.'
  · subst hdot
    rfl
  · rw [if_neg hdot]
    split_ifs at h ⊢ with hspace hquote
    · cases h
      rfl
    · cases h
      rfl
    · cases hmark : markOf c with
      | some m =>
        rw [hmark] at h
        exact feed_dotless h
      | none =>
        rw [hmark] at h
        cases h
        have hword : Torpedo.dotless [c] = [c] := by simp [hdot]
        simp [Reader.dotless, Lexing.dotless, hword]

theorem numbers_start {c : Char} (h : start c parser = .ok s) (n : List Char) :
    n ∈ s.parser.numbers ↔ n ∈ parser.numbers := by
  unfold start at h
  split_ifs at h with hspace hquote
  · cases h
    rfl
  · cases h
    rfl
  · cases hmark : markOf c with
    | some m =>
      rw [hmark] at h
      exact numbers_mark h n
    | none =>
      rw [hmark] at h
      cases h
      rfl

theorem endString_ok_iff {lexeme : List Char} : endString lexeme parser = .ok s ↔
    ∃ w : Written, w.lexeme = lexeme ∧ feed (.string w) parser = .ok s := by
  unfold endString
  split
  · next text heq =>
    constructor
    · exact fun h => ⟨⟨lexeme, text, heq⟩, rfl, h⟩
    · rintro ⟨w, hw, h⟩
      have hsame : (⟨lexeme, text, heq⟩ : Written) = w := Written.ext hw.symm
      rwa [hsame]
  · next e heq =>
    constructor
    · exact fun h => nomatch h
    · rintro ⟨w, rfl, -⟩
      exact nomatch heq.symm.trans w.unescape_eq

theorem endString_dotless {lexeme : List Char} (h : endString lexeme parser = .ok s) :
    endString (Torpedo.dotless lexeme) parser.dotless = .ok s.dotless := by
  obtain ⟨w, rfl, hfeed⟩ := endString_ok_iff.1 h
  exact endString_ok_iff.2 ⟨w.dotless, rfl, feed_dotless hfeed⟩

theorem numbers_endString {expect : Expect} {stack : List (Frame Written (List Char))} {lexeme : List Char}
    (h : endString lexeme (.inside expect stack) = .ok s) (n : List Char) :
    n ∈ s.parser.numbers ↔ n ∈ stack.flatMap Frame.numbers := by
  obtain ⟨w, rfl, hfeed⟩ := endString_ok_iff.1 h
  obtain ⟨p, hp, rfl⟩ := feed_inside.1 hfeed
  simpa [Token.numbers] using numbers_feed hp n

theorem endWord_ok_iff {w : List Char} : endWord w parser = .ok s ↔
    ∃ token, wordToken w = some token ∧ feed token parser = .ok s := by
  unfold endWord
  cases wordToken w with
  | none => simp
  | some token => simp

/-- A word is a word still if it has no dot. -/
theorem endWord_dotless {w : List Char} (h : endWord w parser = .ok s) :
    endWord (Torpedo.dotless w) parser.dotless = if '.' ∈ w then .error .malformed else .ok s.dotless := by
  split_ifs with hdot
  · unfold endWord
    rw [wordToken_dotless hdot]
  · obtain ⟨token, htoken, hfeed⟩ := endWord_ok_iff.1 h
    rw [dotless_eq_self hdot]
    refine endWord_ok_iff.2 ⟨token, htoken, ?_⟩
    have hmap := (numbers_wordToken htoken).2
    rw [if_neg hdot] at hmap
    rw [← hmap]
    exact feed_dotless hfeed

theorem numbers_endWord {expect : Expect} {stack : List (Frame Written (List Char))} {w : List Char}
    (h : endWord w (.inside expect stack) = .ok s) :
    s.Dotted ↔ '.' ∈ w ∨ ∃ n ∈ stack.flatMap Frame.numbers, '.' ∈ n := by
  obtain ⟨token, htoken, hfeed⟩ := endWord_ok_iff.1 h
  obtain ⟨p, hp, rfl⟩ := feed_inside.1 hfeed
  unfold Dotted
  simp only [numbers_feed hp]
  obtain ⟨hnone, hdot⟩ | hsome := (numbers_wordToken htoken).1
  · simp [hnone, hdot]
  · simp [hsome, or_and_right, exists_or]

/-! ### Runs -/

/-- The characters that stand for a character. -/
def dots (c : Char) : List Char := if c = '.' then dotString.toList else [c]

variable {expect : Expect} {stack : List (Frame Written (List Char))}

theorem foldlM_word {cs : List Char} (h : ∀ c ∈ cs, breaks c = false) (w : List Char) :
    cs.foldlM step ⟨.word w, .inside expect stack⟩ = .ok ⟨.word (w ++ cs), .inside expect stack⟩ := by
  induction cs generalizing w with
  | nil => simp [pure, Except.pure]
  | cons c cs ih =>
    obtain ⟨hc, hcs⟩ := List.forall_mem_cons.1 h
    have hstep : step ⟨.word w, .inside expect stack⟩ c = .ok ⟨.word (w ++ [c]), .inside expect stack⟩ := by
      simp [step, advance, hc]
    rw [List.foldlM_cons, hstep]
    exact (ih hcs _).trans (by simp)

theorem foldlM_string {cs : List Char} (h : ∀ c ∈ cs, c ≠ '"' ∧ c ≠ '\\') (lexeme : List Char) :
    cs.foldlM step ⟨.string lexeme false, .inside expect stack⟩ =
      .ok ⟨.string (lexeme ++ cs) false, .inside expect stack⟩ := by
  induction cs generalizing lexeme with
  | nil => simp [pure, Except.pure]
  | cons c cs ih =>
    obtain ⟨hc, hcs⟩ := List.forall_mem_cons.1 h
    have hstep : step ⟨.string lexeme false, .inside expect stack⟩ c =
        .ok ⟨.string (lexeme ++ [c]) false, .inside expect stack⟩ := by
      simp [step, advance, hc.1, hc.2]
    rw [List.foldlM_cons, hstep]
    exact (ih hcs _).trans (by simp)

theorem foldlM_singleton (c : Char) : [c].foldlM step s = step s c := by simp

theorem dotless_concat (cs : List Char) (c : Char) : Torpedo.dotless (cs ++ [c]) = Torpedo.dotless cs ++ dots c := by
  rw [dotless_append]
  exact congrArg _ (List.append_nil _)

theorem dots_of_ne {c : Char} (h : c ≠ '.') : dots c = [c] := if_neg h

theorem advance_word (w : List Char) (parser : Parser Written (List Char)) (c : Char) : advance ⟨.word w, parser⟩ c =
    if breaks c then endWord w parser >>= fun s => start c s.parser else .ok ⟨.word (w ++ [c]), parser⟩ := rfl

theorem advance_string (lexeme : List Char) (parser : Parser Written (List Char)) (c : Char) :
    advance ⟨.string lexeme false, parser⟩ c = if c = '"' then endString lexeme parser
      else .ok ⟨.string (lexeme ++ [c]) (c = '\\'), parser⟩ := rfl

/-- What is read with the dots written out is what is read without, unless a number has a dot. -/
structure Mirrors (s : Reader) (r : Except Fault Reader) : Prop where
  dotted : s.Dotted → r = .error .malformed
  clean : ¬s.Dotted → r = .ok s.dotless

theorem Mirrors.of_clean {r : Except Fault Reader} (h : ¬s.Dotted) (hr : r = .ok s.dotless) : Mirrors s r :=
  ⟨fun hdotted => absurd hdotted h, fun _ => hr⟩

/-- What one character does. -/
theorem mirrors_advance {lexing : Lexing} {c : Char} (hclean : ¬∃ n ∈ stack.flatMap Frame.numbers, '.' ∈ n)
    (h : advance ⟨lexing, .inside expect stack⟩ c = .ok s) :
    Mirrors s ((dots c).foldlM step (dotless ⟨lexing, .inside expect stack⟩)) := by
  cases lexing with
  | between =>
    have hs : ¬s.Dotted := by
      unfold Dotted
      simp only [numbers_start h]
      exact hclean
    refine .of_clean hs ?_
    by_cases hdot : c = '.'
    · subst hdot
      cases h
      rfl
    · have hstart := start_dotless h
      rw [if_neg hdot] at hstart
      rw [dots_of_ne hdot, foldlM_singleton]
      exact hstart
  | word w =>
    rw [advance_word] at h
    cases hbreak : breaks c with
    | true =>
      have hdot : c ≠ '.' := by
        rintro rfl
        exact absurd hbreak (by decide)
      rw [if_pos hbreak] at h
      rw [dots_of_ne hdot, foldlM_singleton]
      have hread : step (dotless ⟨.word w, .inside expect stack⟩) c =
          endWord (Torpedo.dotless w) (Parser.dotless (.inside expect stack)) >>= fun s => start c s.parser := if_pos hbreak
      rw [hread]
      cases hword : endWord w (.inside expect stack) with
      | error e =>
        rw [hword] at h
        exact nomatch h
      | ok s' =>
        rw [hword] at h
        have hstart : start c s'.parser = .ok s := h
        have hdotted : s.Dotted ↔ '.' ∈ w := by
          have hsame : s.Dotted ↔ s'.Dotted := by
            unfold Dotted
            simp only [numbers_start hstart]
          rw [hsame, numbers_endWord hword, or_iff_left hclean]
        constructor
        · intro hs
          rw [endWord_dotless hword, if_pos (hdotted.1 hs)]
          rfl
        · intro hs
          rw [endWord_dotless hword, if_neg fun h => hs (hdotted.2 h)]
          have hnext := start_dotless hstart
          rw [if_neg hdot] at hnext
          exact hnext
    | false =>
      rw [if_neg (by rw [hbreak]; nofun)] at h
      cases h
      refine .of_clean hclean ?_
      have hdots : ∀ d ∈ dots c, breaks d = false := by
        unfold dots
        split_ifs
        · exact List.all_iff_forall_prop.1 (by decide)
        · simpa using hbreak
      refine (foldlM_word hdots _).trans ?_
      rw [← dotless_concat]
      rfl
  | string lexeme escaped =>
    cases escaped with
    | true =>
      cases h
      refine .of_clean hclean ?_
      have hnext : (dots c).foldlM step (dotless ⟨.string lexeme true, .inside expect stack⟩) =
          .ok ⟨.string (Torpedo.dotless lexeme ++ dots c) false, Parser.dotless (.inside expect stack)⟩ := by
        by_cases hdot : c = '.'
        · subst hdot
          -- the first character takes the place of the dot behind the backslash
          have hrest : ∀ d ∈ dotString.toList.tail, d ≠ '"' ∧ d ≠ '\\' := List.all_iff_forall_prop.1 (by decide)
          refine (foldlM_string hrest (Torpedo.dotless lexeme ++ ['U'])).trans ?_
          rw [List.append_assoc]
          rfl
        · rw [dots_of_ne hdot]
          rfl
      rw [hnext, ← dotless_concat]
      rfl
    | false =>
      rw [advance_string] at h
      by_cases hquote : c = '"'
      · subst hquote
        rw [if_pos rfl] at h
        have hs : ¬s.Dotted := by
          unfold Dotted
          simp only [numbers_endString h]
          exact hclean
        refine .of_clean hs ?_
        rw [dots_of_ne (by decide), foldlM_singleton]
        exact endString_dotless h
      · rw [if_neg hquote] at h
        cases h
        refine .of_clean hclean ?_
        by_cases hdot : c = '.'
        · subst hdot
          have hdots : ∀ d ∈ dots '.', d ≠ '"' ∧ d ≠ '\\' := List.all_iff_forall_prop.1 (by decide)
          refine (foldlM_string hdots _).trans ?_
          rw [← dotless_concat]
          rfl
        · have hsame : Torpedo.dotless (lexeme ++ [c]) = Torpedo.dotless lexeme ++ [c] := by
            rw [dotless_concat, dots_of_ne hdot]
          rw [dots_of_ne hdot, foldlM_singleton]
          refine (if_neg hquote).trans ?_
          rw [← hsame]
          rfl

theorem mirrors_step {c : Char} {s s' : Reader} (hclean : ¬s.Dotted) (h : step s c = .ok s') :
    Mirrors s' ((dots c).foldlM step s.dotless) := by
  obtain ⟨lexing, parser⟩ := s
  cases parser with
  | inside expect stack => exact mirrors_advance hclean h
  | done members =>
    cases h
    refine .of_clean hclean ?_
    have hdone : ∀ cs : List Char, cs.foldlM step (dotless ⟨lexing, .done members⟩) =
        .ok (dotless ⟨lexing, .done members⟩) := by
      intro cs
      induction cs with
      | nil => rfl
      | cons c cs ih => rwa [List.foldlM_cons]
    exact hdone _

/-- A number that is read stays. -/
theorem Dotted.step {c : Char} {s s' : Reader} (hdotted : s.Dotted) (h : s.step c = .ok s') : s'.Dotted := by
  obtain ⟨lexing, parser⟩ := s
  cases parser with
  | done members =>
    cases h
    exact hdotted
  | inside expect stack =>
    have hadvance : advance ⟨lexing, .inside expect stack⟩ c = .ok s' := h
    have hstack : ∃ n ∈ stack.flatMap Frame.numbers, '.' ∈ n := hdotted
    cases lexing with
    | between =>
      unfold Dotted
      simp only [numbers_start hadvance]
      exact hstack
    | word w =>
      rw [advance_word] at hadvance
      split_ifs at hadvance
      · cases hword : endWord w (.inside expect stack) with
        | error e =>
          rw [hword] at hadvance
          exact nomatch hadvance
        | ok s₁ =>
          rw [hword] at hadvance
          have hstart : start c s₁.parser = .ok s' := hadvance
          have hnumbers : s₁.Dotted := (numbers_endWord hword).2 (.inr hstack)
          unfold Dotted
          simp only [numbers_start hstart]
          exact hnumbers
      · cases hadvance
        exact hstack
    | string lexeme escaped =>
      cases escaped with
      | true =>
        cases hadvance
        exact hstack
      | false =>
        rw [advance_string] at hadvance
        split_ifs at hadvance
        · unfold Dotted
          simp only [numbers_endString hadvance]
          exact hstack
        · cases hadvance
          exact hstack

theorem Dotted.run {cs : List Char} {s s' : Reader} (hdotted : s.Dotted) (h : cs.foldlM Reader.step s = .ok s') :
    s'.Dotted := by
  induction cs generalizing s with
  | nil =>
    cases h
    exact hdotted
  | cons c cs ih =>
    rw [List.foldlM_cons] at h
    cases hstep : s.step c with
    | error e =>
      rw [hstep] at h
      exact nomatch h
    | ok s₁ =>
      rw [hstep] at h
      exact ih (hdotted.step hstep) h

/-- What a whole text does. -/
theorem mirrors_run {cs : List Char} {s s' : Reader} (hclean : ¬s.Dotted) (h : cs.foldlM step s = .ok s') :
    Mirrors s' ((Torpedo.dotless cs).foldlM step s.dotless) := by
  induction cs generalizing s with
  | nil =>
    cases h
    exact .of_clean hclean rfl
  | cons c cs ih =>
    have hdotless : Torpedo.dotless (c :: cs) = dots c ++ Torpedo.dotless cs := dotless_cons c cs
    rw [hdotless, List.foldlM_append]
    rw [List.foldlM_cons] at h
    cases hstep : step s c with
    | error e =>
      rw [hstep] at h
      exact nomatch h
    | ok s₁ =>
      rw [hstep] at h
      obtain ⟨hdotted, hnext⟩ := mirrors_step hclean hstep
      by_cases hs₁ : s₁.Dotted
      · have hs' : s'.Dotted := hs₁.run h
        refine ⟨fun _ => ?_, fun hs => absurd hs' hs⟩
        rw [hdotted hs₁]
        rfl
      · rw [hnext hs₁]
        exact ih hs₁ h

end Reader

/-- A text with its dots written out is read as the text is, but with the dots of its strings written out, if no number
has a dot, and is malformed else. -/
theorem read_dotless {text : List Char} {members : List (Written × Tree Written (List Char))}
    (h : read text = .ok members) : read (Torpedo.dotless text) =
      if ∃ n ∈ Tree.memberNumbers members, '.' ∈ n then .error .malformed
      else .ok (Tree.mapMembers Written.dotless Torpedo.dotless members) := by
  unfold read at h ⊢
  cases hrun : text.foldlM Reader.step ⟨.between, .inside (.value false) []⟩ with
  | error e =>
    rw [hrun] at h
    exact nomatch h
  | ok s =>
    rw [hrun] at h
    obtain ⟨lexing, parser⟩ := s
    cases parser with
    | inside expect stack => exact nomatch h
    | done members' =>
      cases h
      have hclean : ¬Reader.Dotted ⟨.between, .inside (.value false) []⟩ := by
        rintro ⟨n, hn, -⟩
        exact absurd hn List.not_mem_nil
      obtain ⟨hdotted, hread⟩ := Reader.mirrors_run hclean hrun
      split_ifs with hnumbers
      · have hfold : (Torpedo.dotless text).foldlM Reader.step ⟨.between, .inside (.value false) []⟩ =
            .error .malformed := hdotted hnumbers
        rw [hfold]
        rfl
      · have hfold : (Torpedo.dotless text).foldlM Reader.step ⟨.between, .inside (.value false) []⟩ =
            .ok (Reader.dotless ⟨lexing, .done members⟩) := hread hnumbers
        rw [hfold]
        rfl

end JsonText

end Torpedo
