import Mathlib.Data.List.Basic

/-!
# Texts of JSON

A text is read from the left, up to the end of its object. What is read of it are the strings and the numbers as
they are written.
-/

namespace Torpedo.JsonText

/-! ## Trees -/

/-- What a text says, with some types for its strings and its numbers. A literal is null or a truth value. -/
inductive Tree (σ ν : Type)
  | literal (value : Option Bool)
  | number (n : ν)
  | string (s : σ)
  | array (items : List (Tree σ ν))
  | object (members : List (σ × Tree σ ν))

variable {σ ν σ' ν' : Type}

namespace Tree

mutual

def map (f : σ → σ') (g : ν → ν') : Tree σ ν → Tree σ' ν'
  | literal value => literal value
  | number n => number (g n)
  | string s => string (f s)
  | array items => array (mapItems f g items)
  | object members => object (mapMembers f g members)

def mapItems (f : σ → σ') (g : ν → ν') : List (Tree σ ν) → List (Tree σ' ν')
  | [] => []
  | t :: items => map f g t :: mapItems f g items

def mapMembers (f : σ → σ') (g : ν → ν') : List (σ × Tree σ ν) → List (σ' × Tree σ' ν')
  | [] => []
  | (s, t) :: members => (f s, map f g t) :: mapMembers f g members

end

mutual

/-- The numbers, from the left. -/
def numbers : Tree σ ν → List ν
  | literal _ | string _ => []
  | number n => [n]
  | array items => itemNumbers items
  | object members => memberNumbers members

def itemNumbers : List (Tree σ ν) → List ν
  | [] => []
  | t :: items => numbers t ++ itemNumbers items

def memberNumbers : List (σ × Tree σ ν) → List ν
  | [] => []
  | (_, t) :: members => numbers t ++ memberNumbers members

end

theorem mapItems_eq (f : σ → σ') (g : ν → ν') (items : List (Tree σ ν)) : mapItems f g items = items.map (map f g) := by
  induction items with
  | nil => rfl
  | cons t items ih => exact congrArg (map f g t :: ·) ih

theorem mapMembers_eq (f : σ → σ') (g : ν → ν') (members : List (σ × Tree σ ν)) :
    mapMembers f g members = members.map fun m => (f m.1, map f g m.2) := by
  induction members with
  | nil => rfl
  | cons m members ih => exact congrArg ((f m.1, map f g m.2) :: ·) ih

theorem mapItems_append (f : σ → σ') (g : ν → ν') (items items' : List (Tree σ ν)) :
    mapItems f g (items ++ items') = mapItems f g items ++ mapItems f g items' := by
  simp [mapItems_eq]

theorem mapMembers_append (f : σ → σ') (g : ν → ν') (members members' : List (σ × Tree σ ν)) :
    mapMembers f g (members ++ members') = mapMembers f g members ++ mapMembers f g members' := by
  simp [mapMembers_eq]

theorem itemNumbers_append (items items' : List (Tree σ ν)) :
    itemNumbers (items ++ items') = itemNumbers items ++ itemNumbers items' := by
  induction items with
  | nil => rfl
  | cons t items ih => simp [itemNumbers, ih]

theorem memberNumbers_append (members members' : List (σ × Tree σ ν)) :
    memberNumbers (members ++ members') = memberNumbers members ++ memberNumbers members' := by
  induction members with
  | nil => rfl
  | cons m members ih => simp [memberNumbers, ih]

end Tree

/-! ## Tokens -/

inductive Mark
  | openObject | closeObject | openArray | closeArray | comma | colon
deriving DecidableEq, Repr

inductive Token (σ ν : Type)
  | mark (m : Mark)
  | literal (value : Option Bool)
  | number (n : ν)
  | string (s : σ)

def Token.map (f : σ → σ') (g : ν → ν') : Token σ ν → Token σ' ν'
  | mark m => mark m
  | literal value => literal value
  | number n => number (g n)
  | string s => string (f s)

def Token.numbers : Token σ ν → List ν
  | number n => [n]
  | _ => []

/-- An array or an object that is open, with the name of the member that is read. -/
inductive Frame (σ ν : Type)
  | array (items : List (Tree σ ν))
  | object (members : List (σ × Tree σ ν)) (name : Option σ)

/-- What may come next. The end of an array or an object may come in place of its first part. -/
inductive Expect
  | value (orEnd : Bool)
  | name (orEnd : Bool)
  | colon
  | next
deriving DecidableEq, Repr

inductive Parser (σ ν : Type)
  | inside (expect : Expect) (stack : List (Frame σ ν))
  | done (members : List (σ × Tree σ ν))

/-- A value ends. Only an object may stand alone. -/
def put (t : Tree σ ν) : List (Frame σ ν) → Option (Parser σ ν)
  | [] =>
    match t with
    | .object members => some (.done members)
    | _ => none
  | .array items :: stack => some (.inside .next (.array (items ++ [t]) :: stack))
  | .object members (some name) :: stack => some (.inside .next (.object (members ++ [(name, t)]) none :: stack))
  | .object _ none :: _ => none

namespace Expect

def takesValue : Expect → Bool
  | value _ => true
  | _ => false

def takesName : Expect → Bool
  | name _ => true
  | _ => false

def endsArray : Expect → Bool
  | value orEnd => orEnd
  | next => true
  | _ => false

def endsObject : Expect → Bool
  | name orEnd => orEnd
  | next => true
  | _ => false

end Expect

/-- A string, where a name may come. -/
def putName (s : σ) : List (Frame σ ν) → Option (Parser σ ν)
  | .object members _ :: stack => some (.inside .colon (.object members (some s) :: stack))
  | _ => none

def endArray : List (Frame σ ν) → Option (Parser σ ν)
  | .array items :: stack => put (.array items) stack
  | _ => none

def endObject : List (Frame σ ν) → Option (Parser σ ν)
  | .object members _ :: stack => put (.object members) stack
  | _ => none

def goOn : List (Frame σ ν) → Option (Parser σ ν)
  | .array items :: stack => some (.inside (.value false) (.array items :: stack))
  | .object members name :: stack => some (.inside (.name false) (.object members name :: stack))
  | [] => none

def feedMark (expect : Expect) (stack : List (Frame σ ν)) : Mark → Option (Parser σ ν)
  | .openObject => if expect.takesValue then some (.inside (.name true) (.object [] none :: stack)) else none
  | .openArray => if expect.takesValue then some (.inside (.value true) (.array [] :: stack)) else none
  | .closeObject => if expect.endsObject then endObject stack else none
  | .closeArray => if expect.endsArray then endArray stack else none
  | .comma => if expect = .next then goOn stack else none
  | .colon => if expect = .colon then some (.inside (.value false) stack) else none

def feed (expect : Expect) (stack : List (Frame σ ν)) : Token σ ν → Option (Parser σ ν)
  | .mark m => feedMark expect stack m
  | .literal value => if expect.takesValue then put (.literal value) stack else none
  | .number n => if expect.takesValue then put (.number n) stack else none
  | .string s =>
    if expect.takesValue then put (.string s) stack
    else if expect.takesName then putName s stack
    else none

/-! ### Other strings and numbers -/

namespace Frame

def map (f : σ → σ') (g : ν → ν') : Frame σ ν → Frame σ' ν'
  | array items => array (Tree.mapItems f g items)
  | object members name => object (Tree.mapMembers f g members) (name.map f)

def numbers : Frame σ ν → List ν
  | array items => Tree.itemNumbers items
  | object members _ => Tree.memberNumbers members

end Frame

namespace Parser

def map (f : σ → σ') (g : ν → ν') : Parser σ ν → Parser σ' ν'
  | inside expect stack => inside expect (stack.map (Frame.map f g))
  | done members => done (Tree.mapMembers f g members)

def numbers : Parser σ ν → List ν
  | inside _ stack => stack.flatMap Frame.numbers
  | done members => Tree.memberNumbers members

end Parser

theorem put_map (f : σ → σ') (g : ν → ν') (t : Tree σ ν) (stack : List (Frame σ ν)) :
    put (t.map f g) (stack.map (Frame.map f g)) = (put t stack).map (Parser.map f g) := by
  cases stack with
  | nil => cases t <;> rfl
  | cons frame stack =>
    cases frame with
    | array items => simp [put, Parser.map, Frame.map, Tree.mapItems_append, Tree.mapItems]
    | object members name =>
      cases name with
      | none => rfl
      | some name => simp [put, Parser.map, Frame.map, Tree.mapMembers_append, Tree.mapMembers]

theorem feedMark_map (f : σ → σ') (g : ν → ν') (expect : Expect) (stack : List (Frame σ ν)) (m : Mark) :
    feedMark expect (stack.map (Frame.map f g)) m = (feedMark expect stack m).map (Parser.map f g) := by
  cases m with
  | openObject => cases expect <;> rfl
  | openArray => cases expect <;> rfl
  | closeObject =>
    have hend : endObject (stack.map (Frame.map f g)) = (endObject stack).map (Parser.map f g) := by
      rcases stack with _ | ⟨_ | ⟨members, name⟩, stack⟩
      · rfl
      · rfl
      · exact put_map f g (.object members) stack
    simp only [feedMark, hend]
    split_ifs <;> rfl
  | closeArray =>
    have hend : endArray (stack.map (Frame.map f g)) = (endArray stack).map (Parser.map f g) := by
      rcases stack with _ | ⟨items | _, stack⟩
      · rfl
      · exact put_map f g (.array items) stack
      · rfl
    simp only [feedMark, hend]
    split_ifs <;> rfl
  | comma =>
    have hgo : goOn (stack.map (Frame.map f g)) = (goOn stack).map (Parser.map f g) := by
      rcases stack with _ | ⟨_ | _, stack⟩ <;> rfl
    simp only [feedMark, hgo]
    split_ifs <;> rfl
  | colon =>
    simp only [feedMark]
    split_ifs <;> rfl

/-- The parser does not look at strings and numbers. -/
theorem feed_map (f : σ → σ') (g : ν → ν') (expect : Expect) (stack : List (Frame σ ν)) (token : Token σ ν) :
    feed expect (stack.map (Frame.map f g)) (token.map f g) = (feed expect stack token).map (Parser.map f g) := by
  cases token with
  | mark m => exact feedMark_map f g expect stack m
  | literal value =>
    have hput := put_map f g (.literal value) stack
    cases expect with
    | value orEnd => exact hput
    | _ => rfl
  | number n =>
    have hput := put_map f g (.number n) stack
    cases expect with
    | value orEnd => exact hput
    | _ => rfl
  | string s =>
    have hput := put_map f g (.string s) stack
    have hname : putName (f s) (stack.map (Frame.map f g)) = (putName s stack).map (Parser.map f g) := by
      rcases stack with _ | ⟨_ | _, stack⟩ <;> rfl
    cases expect with
    | value orEnd => exact hput
    | name orEnd => exact hname
    | _ => rfl

/-- The numbers of a value that ends are kept. -/
theorem numbers_put {t : Tree σ ν} {stack : List (Frame σ ν)} {p : Parser σ ν} (h : put t stack = some p) (n : ν) :
    n ∈ p.numbers ↔ n ∈ t.numbers ∨ n ∈ stack.flatMap Frame.numbers := by
  cases stack with
  | nil =>
    cases t <;> cases h
    simp [Parser.numbers, Tree.numbers]
  | cons frame stack =>
    cases frame with
    | array items =>
      cases h
      simp [Parser.numbers, Frame.numbers, Tree.itemNumbers_append, Tree.itemNumbers, or_left_comm]
    | object members name =>
      cases name with
      | none => exact nomatch h
      | some name =>
        cases h
        simp [Parser.numbers, Frame.numbers, Tree.memberNumbers_append, Tree.memberNumbers, or_left_comm]

theorem numbers_feedMark {expect : Expect} {stack : List (Frame σ ν)} {m : Mark} {p : Parser σ ν}
    (h : feedMark expect stack m = some p) (n : ν) : n ∈ p.numbers ↔ n ∈ stack.flatMap Frame.numbers := by
  cases m with
  | openObject =>
    simp only [feedMark] at h
    split_ifs at h
    cases h
    simp [Parser.numbers, Frame.numbers, Tree.memberNumbers]
  | openArray =>
    simp only [feedMark] at h
    split_ifs at h
    cases h
    simp [Parser.numbers, Frame.numbers, Tree.itemNumbers]
  | closeObject =>
    simp only [feedMark] at h
    split_ifs at h
    rcases stack with _ | ⟨_ | ⟨members, name⟩, stack⟩
    · exact nomatch h
    · exact nomatch h
    · have hput : put (.object members) stack = some p := h
      simpa [Tree.numbers, Frame.numbers] using numbers_put hput n
  | closeArray =>
    simp only [feedMark] at h
    split_ifs at h
    rcases stack with _ | ⟨items | _, stack⟩
    · exact nomatch h
    · have hput : put (.array items) stack = some p := h
      simpa [Tree.numbers, Frame.numbers] using numbers_put hput n
    · exact nomatch h
  | comma =>
    simp only [feedMark] at h
    split_ifs at h
    rcases stack with _ | ⟨_ | _, stack⟩ <;> cases h <;> rfl
  | colon =>
    simp only [feedMark] at h
    split_ifs at h
    cases h
    rfl

/-- The numbers that are read are those of the tokens. -/
theorem numbers_feed {expect : Expect} {stack : List (Frame σ ν)} {token : Token σ ν} {p : Parser σ ν}
    (h : feed expect stack token = some p) (n : ν) :
    n ∈ p.numbers ↔ n ∈ token.numbers ∨ n ∈ stack.flatMap Frame.numbers := by
  cases token with
  | mark m => simpa [Token.numbers] using numbers_feedMark h n
  | literal value =>
    simp only [feed] at h
    split_ifs at h
    exact numbers_put h n
  | number m =>
    simp only [feed] at h
    split_ifs at h
    exact numbers_put h n
  | string s =>
    simp only [feed] at h
    split_ifs at h
    · exact numbers_put h n
    · rcases stack with _ | ⟨_ | _, stack⟩ <;> cases h
      simp [Parser.numbers, Frame.numbers, Token.numbers]

/-! ## Strings -/

/-- What is wrong with a text. Half of a surrogate pair is no character, and is left out. -/
inductive Fault
  | malformed | surrogate
deriving DecidableEq, Repr

/-- A part of a string: a character that stands there, or a code unit that is written out. -/
inductive Piece
  | character (c : Char)
  | escaped (unit : ℕ)

def hexDigit (c : Char) : Option ℕ :=
  if '0' ≤ c ∧ c ≤ '9' then some (c.toNat - 48)
  else if 'a' ≤ c ∧ c ≤ 'f' then some (c.toNat - 87)
  else if 'A' ≤ c ∧ c ≤ 'F' then some (c.toNat - 55)
  else none

def hexUnit (a b c d : Char) : Option ℕ := do
  return (((← hexDigit a) * 16 + (← hexDigit b)) * 16 + (← hexDigit c)) * 16 + (← hexDigit d)

def shortEscape (c : Char) : Option ℕ :=
  if c = '"' ∨ c = '\\' ∨ c = '/' then some c.toNat
  else if c = 'b' then some 8
  else if c = 'f' then some 12
  else if c = 'n' then some 10
  else if c = 'r' then some 13
  else if c = 't' then some 9
  else none

/-- The pieces of what stands between the quotes. -/
def pieces : List Char → Option (List Piece)
  | '\\' :: 'u' :: a :: b :: c :: d :: cs => do
    let unit ← hexUnit a b c d
    return .escaped unit :: (← pieces cs)
  | '\\' :: c :: cs => do
    let unit ← shortEscape c
    return .escaped unit :: (← pieces cs)
  | c :: cs => if c = '\\' ∨ c.toNat < 32 then none else do return .character c :: (← pieces cs)
  | [] => some []

/-- The characters of the pieces. The two halves of a surrogate pair are one. -/
def join : List Piece → Option (List Char)
  | [] => some []
  | .character c :: ps => (join ps).map (c :: ·)
  | .escaped high :: ps =>
    if 0xD800 ≤ high ∧ high < 0xDC00 then
      match ps with
      | .escaped low :: ps =>
        if 0xDC00 ≤ low ∧ low < 0xE000 then
          (join ps).map (Char.ofNat (0x10000 + (high - 0xD800) * 0x400 + (low - 0xDC00)) :: ·)
        else none
      | _ => none
    else if 0xDC00 ≤ high ∧ high < 0xE000 then none
    else (join ps).map (Char.ofNat high :: ·)

def unescape (lexeme : List Char) : Except Fault (List Char) :=
  match pieces lexeme with
  | none => .error .malformed
  | some ps =>
    match join ps with
    | none => .error .surrogate
    | some text => .ok text

/-- A string as it is written, and what it says. -/
structure Written where
  lexeme : List Char
  text : List Char
  unescape_eq : unescape lexeme = .ok text

/-! ## Words -/

def isDigit (c : Char) : Bool := '0' ≤ c ∧ c ≤ '9'

/-- One digit or more. -/
def isDigits (cs : List Char) : Bool := cs ≠ [] ∧ cs.all isDigit

def withoutSign : List Char → List Char
  | '+' :: cs => cs
  | '-' :: cs => cs
  | cs => cs

def isExponent : List Char → Bool
  | [] => true
  | c :: cs => (c = 'e' ∨ c = 'E') ∧ isDigits (withoutSign cs)

def isFraction : List Char → Bool
  | '.' :: cs => cs.takeWhile isDigit ≠ [] ∧ isExponent (cs.dropWhile isDigit)
  | cs => isExponent cs

/-- Digits without a zero before them, and a fraction and an exponent if they are there. -/
def isUnsigned (cs : List Char) : Bool :=
  (cs.takeWhile isDigit = ['0'] ∨ cs.takeWhile isDigit ≠ [] ∧ cs.head? ≠ some '0') ∧ isFraction (cs.dropWhile isDigit)

def isNumber : List Char → Bool
  | '-' :: cs => isUnsigned cs
  | cs => isUnsigned cs

def wordToken (w : List Char) : Option (Token Written (List Char)) :=
  if w = "null".toList then some (.literal none)
  else if w = "true".toList then some (.literal (some true))
  else if w = "false".toList then some (.literal (some false))
  else if isNumber w then some (.number w)
  else none

/-! ## The reader -/

def isSpace (c : Char) : Bool := c = ' ' ∨ c = '\t' ∨ c = '\n' ∨ c = '\r'

def markOf (c : Char) : Option Mark :=
  if c = '\x7b' then some .openObject
  else if c = '\x7d' then some .closeObject
  else if c = '[' then some .openArray
  else if c = ']' then some .closeArray
  else if c = ',' then some .comma
  else if c = ':' then some .colon
  else none

/-- A word ends before this character. -/
def breaks (c : Char) : Bool := isSpace c ∨ (markOf c).isSome ∨ c = '"'

inductive Lexing
  | between
  | string (lexeme : List Char) (escaped : Bool)
  | word (lexeme : List Char)

structure Reader where
  lexing : Lexing
  parser : Parser Written (List Char)

namespace Reader

def ofOption : Option (Parser Written (List Char)) → Except Fault Reader
  | some parser => .ok ⟨.between, parser⟩
  | none => .error .malformed

def feed (token : Token Written (List Char)) : Parser Written (List Char) → Except Fault Reader
  | .inside expect stack => ofOption (JsonText.feed expect stack token)
  | .done members => .ok ⟨.between, .done members⟩

theorem feed_inside {expect : Expect} {stack : List (Frame Written (List Char))} {token : Token Written (List Char)}
    {s : Reader} : feed token (.inside expect stack) = .ok s ↔
      ∃ parser, JsonText.feed expect stack token = some parser ∧ s = ⟨.between, parser⟩ := by
  show ofOption (JsonText.feed expect stack token) = .ok s ↔ _
  cases JsonText.feed expect stack token with
  | none => simp [ofOption]
  | some parser => simp [ofOption, eq_comm]

def endString (lexeme : List Char) (parser : Parser Written (List Char)) : Except Fault Reader :=
  match h : unescape lexeme with
  | .ok text => feed (.string ⟨lexeme, text, h⟩) parser
  | .error e => .error e

def endWord (w : List Char) (parser : Parser Written (List Char)) : Except Fault Reader :=
  match wordToken w with
  | some token => feed token parser
  | none => .error .malformed

/-- A character between two tokens. -/
def start (c : Char) (parser : Parser Written (List Char)) : Except Fault Reader :=
  if isSpace c then .ok ⟨.between, parser⟩
  else if c = '"' then .ok ⟨.string [] false, parser⟩
  else
    match markOf c with
    | some m => feed (.mark m) parser
    | none => .ok ⟨.word [c], parser⟩

/-- A character of an object that has not ended. -/
def advance (s : Reader) (c : Char) : Except Fault Reader :=
  match s.lexing with
  | .between => start c s.parser
  | .word w =>
    if breaks c then do
      let s ← endWord w s.parser
      start c s.parser
    else .ok ⟨.word (w ++ [c]), s.parser⟩
  | .string lexeme true => .ok ⟨.string (lexeme ++ [c]) false, s.parser⟩
  | .string lexeme false =>
    if c = '"' then endString lexeme s.parser else .ok ⟨.string (lexeme ++ [c]) (c = '\\'), s.parser⟩

/-- What comes after the object is not read. -/
def step (s : Reader) (c : Char) : Except Fault Reader :=
  match s.parser with
  | .done _ => .ok s
  | .inside _ _ => s.advance c

def members (s : Reader) : Except Fault (List (Written × Tree Written (List Char))) :=
  match s.parser with
  | .done members => .ok members
  | .inside _ _ => .error .malformed

end Reader

/-- The members of the object of a text. -/
def read (text : List Char) : Except Fault (List (Written × Tree Written (List Char))) := do
  let s ← text.foldlM Reader.step ⟨.between, .inside (.value false) []⟩
  s.members

end Torpedo.JsonText
