import Mathlib

/-! # The content-filter parser

`dds/filter/parser.rs`: a hand-written lexer over the characters of a filter expression, and a
recursive-descent parser over its tokens.

* The lexer asks `char` for Unicode properties (`is_whitespace`, `is_alphabetic`,
  `is_alphanumeric`, `to_uppercase`); the model takes them as a `CharClasses` argument.
* `Lexer::next_token` depends on the position only, so the tokens the parser reaches one
  `advance` after another are `tokenize`'s list; the error the lexer stops at, if any, is
  raised by the `advance` that would read past the last token.
* Each parsing function returns what it leaves unread with a proof that it is shorter, which
  is what makes the recursion terminate.
* An `f64` is kept as its bits. Messages formatted with `{:?}` keep the token they print.
-/

namespace Hdds.Dds.Filter
set_option autoImplicit false

/-! ## The filter's data -/

/-- `Operator`. -/
inductive Operator
  | gt | lt | ge | le | eq | ne | like
  deriving DecidableEq, Repr

/-- An `f64`, by its bits. -/
structure F64 where
  bits : UInt64
  deriving DecidableEq, Repr

def F64.ofFloat (x : Float) : F64 := ⟨x.toBits⟩

def F64.toFloat (x : F64) : Float := Float.ofBits x.bits

/-- `Value`. -/
inductive Value
  | integer (n : Int64)
  | float (f : F64)
  | string (s : List Char)
  | boolean (b : Bool)
  | parameter (idx : ℕ)
  | field (name : List Char)
  deriving DecidableEq, Repr

/-- `Expression`. -/
inductive Expression
  | comparison (left : Value) (op : Operator) (right : Value)
  | and (left right : Expression)
  | or (left right : Expression)
  | not (inner : Expression)
  | true
  deriving DecidableEq, Repr

/-- `Token`. -/
inductive Token
  | identifier (name : List Char)
  | integer (n : Int64)
  | float (f : F64)
  | string (s : List Char)
  | parameter (idx : ℕ)
  | operator (op : Operator)
  | and
  | or
  | not
  | lparen
  | rparen
  | eof
  deriving DecidableEq, Repr

/-- `FieldValue` (`evaluator.rs`). -/
inductive FieldValue
  | integer (n : Int64)
  | float (f : F64)
  | string (s : List Char)
  | boolean (b : Bool)
  | unsigned (n : UInt64)
  deriving DecidableEq, Repr

/-- The message of a `ParseError`. -/
inductive ParseMessage
  | text (msg : String)
  | unexpectedCharacter (ch : Char)
  | expectedOperator (got : Token)
  | expectedValue (got : Token)
  deriving DecidableEq, Repr

/-- The message of a `TypeMismatch`. -/
inductive MismatchMessage
  | text (msg : String)
  | cannotCompare (left right : FieldValue)
  deriving DecidableEq, Repr

/-- `FilterError` (`filter/mod.rs`). -/
inductive FilterError
  | parseError (msg : ParseMessage)
  | unknownField (name : List Char)
  | parameterOutOfRange (idx : ℕ)
  | typeMismatch (msg : MismatchMessage)
  | emptyExpression
  deriving DecidableEq, Repr

/-! ## Numbers as `str::parse` reads them -/

/-- The value of a string of ASCII digits. -/
def digitsValue (ds : List Char) : ℕ := ds.foldl (fun n c => 10 * n + (c.toNat - '0'.toNat)) 0

/-- An optional sign: whether it is `-`, and what follows it. -/
def splitSign : List Char → Bool × List Char
  | '-' :: cs => (true, cs)
  | '+' :: cs => (false, cs)
  | cs => (false, cs)

/-- `str::parse::<i64>`: an optional sign and at least one digit, in range. -/
def parseI64 (s : List Char) : Option Int64 :=
  let (neg, ds) := splitSign s
  if ds ≠ [] ∧ ds.all Char.isDigit then
    let v : Int := if neg then -(digitsValue ds : Int) else digitsValue ds
    if -2 ^ 63 ≤ v ∧ v < 2 ^ 63 then some (Int64.ofInt v) else none
  else none

/-- A decimal `digits [. digits] [e [sign] digits]` with at least one mantissa digit, as the
number `mantissa * 10^exponent`. -/
def parseDecimal (body : List Char) : Option Float :=
  let (intPart, r₁) := body.span Char.isDigit
  let (fracPart, r₂) : List Char × List Char := match r₁ with
    | '.' :: r => r.span Char.isDigit
    | r => ([], r)
  let exponent : Option Int := match r₂ with
    | [] => some 0
    | c :: r =>
      if c = 'e' ∨ c = 'E' then
        let (neg, ds) := splitSign r
        if ds ≠ [] ∧ ds.all Char.isDigit then
          some (if neg then -(digitsValue ds : Int) else digitsValue ds)
        else none
      else none
  if intPart ++ fracPart = [] then none
  else exponent.map fun e =>
    let k : Int := e - fracPart.length
    Float.ofScientific (digitsValue (intPart ++ fracPart)) (decide (k < 0)) k.natAbs

/-- `str::parse::<f64>`: an optional sign, then `inf`, `infinity` or `nan` in any case, or a
decimal. -/
def parseF64 (s : List Char) : Option F64 :=
  let (neg, body) := splitSign s
  let lower := body.map Char.toLower
  let magnitude : Option Float :=
    if lower = "inf".toList ∨ lower = "infinity".toList then some (1 / 0)
    else if lower = "nan".toList then some (0 / 0)
    else parseDecimal body
  magnitude.map fun x => F64.ofFloat (if neg then -x else x)

/-! ## The lexer -/

/-- The Unicode properties of characters the lexer consults. -/
structure CharClasses where
  isWhitespace : Char → Bool
  isAlphabetic : Char → Bool
  isNumeric : Char → Bool
  toUppercase : Char → List Char

namespace CharClasses

variable (u : CharClasses)

def isAlphanumeric (c : Char) : Bool := u.isAlphabetic c || u.isNumeric c

/-- `str::to_uppercase`. -/
def toUppercaseStr (s : List Char) : List Char := s.flatMap u.toUppercase

/-- `str::trim`. -/
def trim (s : List Char) : List Char :=
  ((s.dropWhile u.isWhitespace).reverse.dropWhile u.isWhitespace).reverse

/-- The classes of the ASCII characters, which are `char`'s on ASCII input. -/
def ascii : CharClasses where
  isWhitespace c := c = ' ' || c = '\t' || c = '\n' || c = '\r' || c.toNat = 11 || c.toNat = 12
  isAlphabetic c := c.isAlpha
  isNumeric c := c.isDigit
  toUppercase c := [c.toUpper]

end CharClasses

namespace Lexer

variable (u : CharClasses)

/-- `Lexer::skip_whitespace`. -/
def skipWhitespace (input : List Char) : List Char := input.dropWhile u.isWhitespace

/-- `Lexer::read_identifier`: the identifier and what follows it. -/
def readIdentifier (input : List Char) : List Char × List Char :=
  input.span fun c => u.isAlphanumeric c || c = '_'

/-- The digit loop of `Lexer::read_number`: the characters it takes, whether a point was among
them, and what follows. -/
def readNumberLoop : Bool → List Char → List Char × Bool × List Char
  | hasDot, c :: cs =>
    if c.isDigit then
      let r := readNumberLoop hasDot cs
      (c :: r.1, r.2)
    else if c = '.' ∧ hasDot = false then
      let r := readNumberLoop true cs
      (c :: r.1, r.2)
    else ([], hasDot, c :: cs)
  | hasDot, [] => ([], hasDot, [])

/-- `Lexer::read_number`. -/
def readNumber (input : List Char) : Token × List Char :=
  -- a leading `-` belongs to the number
  let sign := if input.head? = some '-' then ['-'] else []
  let loop := readNumberLoop false (input.drop sign.length)
  let numStr := sign ++ loop.1
  if loop.2.1 then (.float ((parseF64 numStr).getD (F64.ofFloat 0)), loop.2.2)
  else (.integer ((parseI64 numStr).getD 0), loop.2.2)

/-- `Lexer::read_string`, after the opening quote. -/
def readString (quote : Char) (input : List Char) : Except FilterError (List Char × List Char) :=
  match input.span (· ≠ quote) with
  | (s, _ :: rest) => .ok (s, rest)
  | (_, []) => .error (.parseError (.text "Unterminated string"))

/-- `Lexer::read_parameter`, after the `%`; an index is a `usize`. -/
def readParameter (input : List Char) : Except FilterError (Token × List Char) :=
  let (digits, rest) := input.span Char.isDigit
  if digits = [] then .error (.parseError (.text "Expected digit after '%'"))
  else if digitsValue digits < 2 ^ 64 then .ok (.parameter (digitsValue digits), rest)
  else .error (.parseError (.text "Invalid parameter index"))

/-- The keywords, compared in upper case. -/
def keyword (ident : List Char) : Token :=
  let upper := u.toUppercaseStr ident
  if upper = "AND".toList then .and
  else if upper = "OR".toList then .or
  else if upper = "NOT".toList then .not
  else if upper = "TRUE".toList then .integer 1
  else if upper = "FALSE".toList then .integer 0
  else if upper = "LIKE".toList then .operator .like
  else .identifier ident

/-- `Lexer::next_token`: the token and what follows it. -/
def nextToken (input : List Char) : Except FilterError (Token × List Char) :=
  match skipWhitespace u input with
  | [] => .ok (.eof, [])
  | ch :: rest =>
    if ch = '>' then
      match rest with
      | '=' :: r => .ok (.operator .ge, r)
      | r => .ok (.operator .gt, r)
    else if ch = '<' then
      match rest with
      | '=' :: r => .ok (.operator .le, r)
      | '>' :: r => .ok (.operator .ne, r)
      | r => .ok (.operator .lt, r)
    else if ch = '=' then
      match rest with
      | '=' :: r => .ok (.operator .eq, r)
      | r => .ok (.operator .eq, r)
    else if ch = '!' then
      match rest with
      | '=' :: r => .ok (.operator .ne, r)
      | _ => .error (.parseError (.text "Expected '=' after '!'"))
    else if ch = '(' then .ok (.lparen, rest)
    else if ch = ')' then .ok (.rparen, rest)
    else if ch = '%' then readParameter rest
    else if ch = '\x27' ∨ ch = '"' then
      (readString ch rest).map fun r => (.string r.1, r.2)
    else if ch.isDigit ∨ (ch = '-' ∧ rest.head?.map Char.isDigit = some true) then
      .ok (readNumber (ch :: rest))
    else if u.isAlphabetic ch ∨ ch = '_' then
      let r := readIdentifier u (ch :: rest)
      .ok (keyword u r.1, r.2)
    else .error (.parseError (.unexpectedCharacter ch))

end Lexer

/-! ### Every token but `Eof` takes at least one character -/

namespace Lexer

variable (u : CharClasses)

theorem length_readNumberLoop_le (hasDot : Bool) (cs : List Char) :
    (readNumberLoop hasDot cs).2.2.length ≤ cs.length := by
  induction cs generalizing hasDot with
  | nil => exact le_rfl
  | cons c cs ih =>
    unfold readNumberLoop
    split_ifs
    · exact (ih hasDot).trans (Nat.le_succ _)
    · exact (ih true).trans (Nat.le_succ _)
    · exact le_rfl

theorem length_readNumber_lt {c : Char} (cs : List Char) (hc : c.isDigit = true ∨ c = '-') :
    (readNumber (c :: cs)).2.length < (c :: cs).length := by
  have hsnd : ∀ input, (readNumber input).2 =
      (readNumberLoop false (input.drop (if input.head? = some '-' then 1 else 0))).2.2 := by
    intro input
    unfold readNumber
    dsimp only
    split_ifs <;> rfl
  rw [hsnd, List.length_cons]
  by_cases hm : c = '-'
  · subst hm
    exact Nat.lt_succ_of_le (length_readNumberLoop_le false cs)
  · have hd : c.isDigit = true := hc.resolve_right hm
    have hloop : readNumberLoop false (c :: cs) = (c :: (readNumberLoop false cs).1,
        (readNumberLoop false cs).2) := by
      rw [readNumberLoop, if_pos hd]
    rw [List.head?_cons, if_neg (fun h => hm (Option.some.inj h)), List.drop_zero, hloop]
    exact Nat.lt_succ_of_le (length_readNumberLoop_le false cs)

theorem length_readIdentifier_le {c : Char} (cs : List Char) (hc : u.isAlphabetic c = true ∨ c = '_') :
    (readIdentifier u (c :: cs)).2.length ≤ cs.length := by
  have hp : (u.isAlphanumeric c || decide (c = '_')) = true := by
    rcases hc with hc | hc
    · simp [CharClasses.isAlphanumeric, hc]
    · simp [hc]
  simp only [readIdentifier, List.span_eq_takeWhile_dropWhile, List.dropWhile_cons, hp, if_true]
  exact List.length_dropWhile_le _ _

theorem length_readString_le {quote : Char} {cs s rest : List Char}
    (h : readString quote cs = .ok (s, rest)) : rest.length ≤ cs.length := by
  unfold readString at h
  split at h
  · rename_i s' x r heq
    cases h
    rw [List.span_eq_takeWhile_dropWhile, Prod.mk.injEq] at heq
    have hle := List.length_dropWhile_le (fun c => decide (c ≠ quote)) cs
    rw [heq.2, List.length_cons] at hle
    omega
  · cases h

theorem length_readParameter_le {cs rest : List Char} {t : Token}
    (h : readParameter cs = .ok (t, rest)) : rest.length ≤ cs.length := by
  unfold readParameter at h
  rw [List.span_eq_takeWhile_dropWhile] at h
  dsimp only at h
  split_ifs at h
  cases h
  exact List.length_dropWhile_le _ _

theorem nextToken_progress {input rest : List Char} {t : Token} (h : nextToken u input = .ok (t, rest))
    (ht : t ≠ .eof) : rest.length < input.length := by
  have hw : (skipWhitespace u input).length ≤ input.length := List.length_dropWhile_le _ _
  unfold nextToken at h
  cases hs : skipWhitespace u input with
  | nil =>
    rw [hs] at h
    cases h
    exact absurd rfl ht
  | cons ch r =>
    rw [hs] at h
    rw [hs, List.length_cons] at hw
    suffices hr : rest.length ≤ r.length by omega
    dsimp only at h
    split_ifs at h with h₁ h₂ h₃ h₄ h₅ h₆ h₇ h₈ h₉ h₁₀
    -- the operators: one character, or two
    iterate 4
      split at h <;> cases h <;> simp
    -- the parentheses
    iterate 2
      cases h
      exact le_rfl
    · exact length_readParameter_le h
    · cases hr : readString ch r with
      | error e =>
        rw [hr] at h
        cases h
      | ok p =>
        rw [hr] at h
        cases h
        exact length_readString_le hr
    · have hp := Except.ok.inj h
      have := length_readNumber_lt r (h₉.imp_right And.left)
      rw [hp, List.length_cons] at this
      exact Nat.le_of_lt_succ this
    · cases h
      exact length_readIdentifier_le u r h₁₀

/-- The tokens `next_token` yields one call after another, up to `Eof` or to the error it
stops at. -/
def tokenize (input : List Char) : List Token × Option FilterError :=
  match h : nextToken u input with
  | .error e => ([], some e)
  | .ok (t, rest) =>
    if ht : t = .eof then ([], none)
    else
      have := nextToken_progress u h ht
      let r := tokenize rest
      (t :: r.1, r.2)
termination_by input.length

end Lexer

/-! ## The parser

The parser's state is the list of tokens from the current one on; past the last one the current
token is `Eof`, or reading it fails with the lexer's error `stop`. -/

/-- `Parser::current`. -/
def current (s : List Token) : Token := s.headD .eof

theorem current_cons (t : Token) (ts : List Token) : current (t :: ts) = t := rfl

theorem ne_nil_of_current {s : List Token} {t : Token} (h : current s = t) (ht : t ≠ .eof) : s ≠ [] := by
  rintro rfl
  exact ht h.symm

/-- The value a token stands for in `parse_value`. -/
def valueOf? : Token → Option Value
  | .identifier name => some (.field name)
  | .integer n => some (.integer n)
  | .float f => some (.float f)
  | .string s => some (.string s)
  | .parameter idx => some (.parameter idx)
  | _ => none

theorem ne_eof_of_valueOf {t : Token} {v : Value} (h : valueOf? t = some v) : t ≠ .eof := by
  rintro rfl
  cases h

section Parser

variable (stop : Option FilterError)

/-- `Parser::advance`. -/
def advance : (s : List Token) → s ≠ [] → Except FilterError {s' : List Token // s'.length < s.length}
  | _ :: ts, _ =>
    match ts, stop with
    | [], some e => .error e
    | ts, _ => .ok ⟨ts, Nat.lt_succ_self _⟩

/-- `Parser::parse_value`. -/
def parseValue (s : List Token) : Except FilterError {r : Value × List Token // r.2.length < s.length} :=
  match h : valueOf? (current s) with
  | some value => do
    let ⟨s₁, h₁⟩ ← advance stop s (ne_nil_of_current rfl (ne_eof_of_valueOf h))
    return ⟨(value, s₁), h₁⟩
  | none => throw (.parseError (.expectedValue (current s)))

/-- `Parser::parse_comparison`: a value, then an operator and a value, or the end. -/
def parseComparison (s : List Token) :
    Except FilterError {r : Expression × List Token // r.2.length < s.length} := do
  let ⟨(left, s₁), h₁⟩ ← parseValue stop s
  match h : current s₁ with
  | .operator op =>
    let ⟨s₂, h₂⟩ ← advance stop s₁ (ne_nil_of_current h Token.noConfusion)
    let ⟨(right, s₃), h₃⟩ ← parseValue stop s₂
    return ⟨(.comparison left op right, s₃), by dsimp only at *; omega⟩
  -- no comparison, just a value
  | .eof => return ⟨(.true, s₁), h₁⟩
  | t => throw (.parseError (.expectedOperator t))

mutual

/-- `Parser::parse_or`, which `parse_expression` is. -/
def parseOr (s : List Token) : Except FilterError {r : Expression × List Token // r.2.length < s.length} := do
  let ⟨(left, s₁), h₁⟩ ← parseAnd s
  let ⟨r, h₂⟩ ← orLoop left s₁
  return ⟨r, Nat.lt_of_le_of_lt h₂ h₁⟩
termination_by (s.length, 3)

/-- The `while self.current == Token::Or` loop of `parse_or`. -/
def orLoop (left : Expression) (s : List Token) :
    Except FilterError {r : Expression × List Token // r.2.length ≤ s.length} :=
  if h : current s = .or then do
    let ⟨s₁, h₁⟩ ← advance stop s (ne_nil_of_current h Token.noConfusion)
    let ⟨(right, s₂), h₂⟩ ← parseAnd s₁
    have : s₂.length < s.length := by dsimp only at h₂; omega
    let ⟨r, h₃⟩ ← orLoop (.or left right) s₂
    return ⟨r, by dsimp only at *; omega⟩
  else return ⟨(left, s), le_rfl⟩
termination_by (s.length, 0)

/-- `Parser::parse_and`. -/
def parseAnd (s : List Token) : Except FilterError {r : Expression × List Token // r.2.length < s.length} := do
  let ⟨(left, s₁), h₁⟩ ← parseNot s
  let ⟨r, h₂⟩ ← andLoop left s₁
  return ⟨r, Nat.lt_of_le_of_lt h₂ h₁⟩
termination_by (s.length, 2)

/-- The `while self.current == Token::And` loop of `parse_and`. -/
def andLoop (left : Expression) (s : List Token) :
    Except FilterError {r : Expression × List Token // r.2.length ≤ s.length} :=
  if h : current s = .and then do
    let ⟨s₁, h₁⟩ ← advance stop s (ne_nil_of_current h Token.noConfusion)
    let ⟨(right, s₂), h₂⟩ ← parseNot s₁
    have : s₂.length < s.length := by dsimp only at h₂; omega
    let ⟨r, h₃⟩ ← andLoop (.and left right) s₂
    return ⟨r, by dsimp only at *; omega⟩
  else return ⟨(left, s), le_rfl⟩
termination_by (s.length, 0)

/-- `Parser::parse_not`. -/
def parseNot (s : List Token) : Except FilterError {r : Expression × List Token // r.2.length < s.length} :=
  if h : current s = .not then do
    let ⟨s₁, h₁⟩ ← advance stop s (ne_nil_of_current h Token.noConfusion)
    let ⟨(expr, s₂), h₂⟩ ← parseNot s₁
    return ⟨(.not expr, s₂), by dsimp only at *; omega⟩
  else parsePrimary s
termination_by (s.length, 1)

/-- `Parser::parse_primary`: a parenthesized expression, or a comparison. -/
def parsePrimary (s : List Token) :
    Except FilterError {r : Expression × List Token // r.2.length < s.length} :=
  if h : current s = .lparen then do
    let ⟨s₁, h₁⟩ ← advance stop s (ne_nil_of_current h Token.noConfusion)
    let ⟨(expr, s₂), h₂⟩ ← parseOr s₁
    if h' : current s₂ = .rparen then do
      let ⟨s₃, h₃⟩ ← advance stop s₂ (ne_nil_of_current h' Token.noConfusion)
      return ⟨(expr, s₃), by dsimp only at *; omega⟩
    else throw (.parseError (.text "Expected closing parenthesis"))
  else parseComparison stop s
termination_by (s.length, 0)

end

end Parser

/-- `parse_expression`: trim, refuse an empty expression, read the first token
(`Parser::new`) and parse. -/
def parseExpression (u : CharClasses) (expression : List Char) : Except FilterError Expression :=
  let trimmed := u.trim expression
  if trimmed = [] then throw .emptyExpression
  else
    match Lexer.tokenize u trimmed with
    | ([], some e) => throw e
    | (tokens, stop) => (parseOr stop tokens).map fun r => r.1.1

/-! ## The grammar -/

/-- The nonterminals of the claimed grammar; a starred tail `(OR and)*` carries the expression
on its left. -/
inductive Nonterminal
  | or
  | orTail (left : Expression)
  | and
  | andTail (left : Expression)
  | not
  | primary

/-- The starred tails, the only nonterminals that derive the empty list. -/
def Nonterminal.isTail : Nonterminal → Bool
  | .orTail _ | .andTail _ => true
  | _ => false

/-- `Derives n ts e`: the tokens `ts` derive from `n` with tree `e`. -/
inductive Derives : Nonterminal → List Token → Expression → Prop
  | or {a t : List Token} {e₀ e : Expression} :
    Derives .and a e₀ → Derives (.orTail e₀) t e → Derives .or (a ++ t) e
  | orTailNil {left : Expression} : Derives (.orTail left) [] left
  | orTailCons {left f e : Expression} {a t : List Token} :
    Derives .and a f → Derives (.orTail (.or left f)) t e → Derives (.orTail left) (.or :: (a ++ t)) e
  | and {a t : List Token} {e₀ e : Expression} :
    Derives .not a e₀ → Derives (.andTail e₀) t e → Derives .and (a ++ t) e
  | andTailNil {left : Expression} : Derives (.andTail left) [] left
  | andTailCons {left f e : Expression} {a t : List Token} :
    Derives .not a f → Derives (.andTail (.and left f)) t e → Derives (.andTail left) (.and :: (a ++ t)) e
  | not {ts : List Token} {e : Expression} : Derives .not ts e → Derives .not (.not :: ts) (.not e)
  | primary {ts : List Token} {e : Expression} : Derives .primary ts e → Derives .not ts e
  | paren {ts : List Token} {e : Expression} :
    Derives .or ts e → Derives .primary (.lparen :: (ts ++ [.rparen])) e
  | comparison {t₁ t₂ : Token} {v₁ v₂ : Value} (op : Operator) :
    valueOf? t₁ = some v₁ → valueOf? t₂ = some v₂ →
      Derives .primary [t₁, .operator op, t₂] (.comparison v₁ op v₂)

/-- What may follow a phrase of `n` without the parser reading on into it. -/
def Follows : Nonterminal → Token → Prop
  | .or, t | .orTail _, t => t ≠ .and ∧ t ≠ .or
  | .and, t | .andTail _, t => t ≠ .and
  | _, _ => True

section Parser

variable (stop : Option FilterError)

/-- The parsing function of each nonterminal, without its progress proof. -/
def Nonterminal.parse : Nonterminal → List Token → Except FilterError (Expression × List Token)
  | .or, s => (parseOr stop s).map Subtype.val
  | .orTail left, s => (orLoop stop left s).map Subtype.val
  | .and, s => (parseAnd stop s).map Subtype.val
  | .andTail left, s => (andLoop stop left s).map Subtype.val
  | .not, s => (parseNot stop s).map Subtype.val
  | .primary, s => (parsePrimary stop s).map Subtype.val

theorem advance_cons (t : Token) (ts : List Token) (hts : ts = [] → stop = none) (h : t :: ts ≠ []) :
    ∃ hlt, advance stop (t :: ts) h = .ok ⟨ts, hlt⟩ := by
  cases ts with
  | nil =>
    rw [hts rfl]
    exact ⟨_, rfl⟩
  | cons t' ts => exact ⟨_, rfl⟩

end Parser

section Reading

variable (stop : Option FilterError)

omit stop in
theorem map_val_eq_ok {α : Type} {P : α → Prop} {x : Except FilterError {r : α // P r}} {v : α} :
    x.map Subtype.val = .ok v ↔ ∃ h, x = .ok ⟨v, h⟩ := by
  cases x with
  | error e => simp [Except.map]
  | ok r =>
    obtain ⟨r, hr⟩ := r
    simp only [Except.map, Except.ok.injEq, Subtype.mk.injEq]
    exact ⟨fun h => ⟨h ▸ hr, h⟩, fun ⟨_, h⟩ => h⟩

theorem parseValue_cons {t : Token} {v : Value} (hv : valueOf? t = some v) (ts : List Token)
    (hts : ts = [] → stop = none) : (parseValue stop (t :: ts)).map Subtype.val = .ok (v, ts) := by
  obtain ⟨hlt, hadv⟩ := advance_cons stop t ts hts (List.cons_ne_nil t ts)
  unfold parseValue
  split
  · rename_i value h
    rw [show current (t :: ts) = t from rfl, hv] at h
    cases h
    simp only [bind, Except.bind, hadv]
    rfl
  · rename_i h
    rw [show current (t :: ts) = t from rfl, hv] at h
    cases h

theorem parseComparison_cons {t₁ t₂ : Token} {v₁ v₂ : Value} (op : Operator) (hv₁ : valueOf? t₁ = some v₁)
    (hv₂ : valueOf? t₂ = some v₂) (rest : List Token) (hrest : rest = [] → stop = none) :
    (parseComparison stop (t₁ :: .operator op :: t₂ :: rest)).map Subtype.val =
      .ok (.comparison v₁ op v₂, rest) := by
  obtain ⟨h₁, e₁⟩ := map_val_eq_ok.mp (parseValue_cons stop hv₁ (.operator op :: t₂ :: rest) (fun h => by cases h))
  obtain ⟨h₂, e₂⟩ := advance_cons stop (.operator op) (t₂ :: rest) (fun h => by cases h) (List.cons_ne_nil _ _)
  obtain ⟨h₃, e₃⟩ := map_val_eq_ok.mp (parseValue_cons stop hv₂ rest hrest)
  unfold parseComparison
  simp only [e₁, bind, Except.bind]
  split
  · rename_i op' h
    cases h
    simp only [e₂, e₃]
    rfl
  · rename_i h
    cases h
  · rename_i hop _
    exact absurd rfl (hop op)

end Reading

namespace Derives

theorem ne_nil {n : Nonterminal} {ts : List Token} {e : Expression} (h : Derives n ts e)
    (hn : n.isTail = false) : ts ≠ [] := by
  induction h with
  | or _ _ iha _ => exact fun h => iha rfl (List.append_eq_nil_iff.mp h).1
  | orTailNil => cases hn
  | orTailCons => cases hn
  | and _ _ iha _ => exact fun h => iha rfl (List.append_eq_nil_iff.mp h).1
  | andTailNil => cases hn
  | andTailCons => cases hn
  | not => exact List.cons_ne_nil _ _
  | primary _ ih => exact ih rfl
  | paren => exact List.cons_ne_nil _ _
  | comparison => exact List.cons_ne_nil _ _

theorem append_ne_nil {n : Nonterminal} {ts : List Token} {e : Expression} (h : Derives n ts e)
    (hn : n.isTail = false) (rest : List Token) : ts ++ rest ≠ [] :=
  fun h' => h.ne_nil hn (List.append_eq_nil_iff.mp h').1

/-- An OR tail starts with OR, or is empty. -/
theorem current_orTail_ne_and {left e : Expression} {t rest : List Token} (h : Derives (.orTail left) t e)
    (hrest : current rest ≠ .and) : current (t ++ rest) ≠ .and := by
  cases h with
  | orTailNil => exact hrest
  | orTailCons => exact Token.noConfusion

/-- A primary phrase opens with a parenthesis or a value. -/
theorem current_primary {ts : List Token} {e : Expression} (h : Derives .primary ts e) (rest : List Token) :
    current (ts ++ rest) = .lparen ∨ (valueOf? (current (ts ++ rest))).isSome := by
  cases h with
  | paren => exact Or.inl rfl
  | @comparison t₁ t₂ v₁ v₂ op hv₁ _ =>
    right
    change (valueOf? t₁).isSome = true
    rw [hv₁]
    rfl

end Derives

theorem andLoop_stop (stop : Option FilterError) (left : Expression) (s : List Token) (h : current s ≠ .and) :
    andLoop stop left s = .ok ⟨(left, s), le_rfl⟩ := by
  rw [andLoop, dif_neg h]
  rfl

theorem orLoop_stop (stop : Option FilterError) (left : Expression) (s : List Token) (h : current s ≠ .or) :
    orLoop stop left s = .ok ⟨(left, s), le_rfl⟩ := by
  rw [orLoop, dif_neg h]
  rfl

section Completeness

variable (stop : Option FilterError)

/-- The parser reads a derivation back, and stops where it ends, whenever what follows is not
read on into and the lexer reaches the token after it. -/
theorem parse_of_derives {n : Nonterminal} {ts : List Token} {e : Expression} (h : Derives n ts e)
    (rest : List Token) (hf : Follows n (current rest)) (hstop : rest = [] → stop = none) :
    n.parse stop (ts ++ rest) = .ok (e, rest) := by
  induction h generalizing rest with
  | @or a t e₀ e ha ht iha iht =>
    obtain ⟨h₁, e₁⟩ := map_val_eq_ok.mp
      (iha (t ++ rest) (ht.current_orTail_ne_and hf.1) fun h => hstop (List.append_eq_nil_iff.mp h).2)
    obtain ⟨h₂, e₂⟩ := map_val_eq_ok.mp (iht rest hf hstop)
    show (parseOr stop (a ++ t ++ rest)).map Subtype.val = _
    rw [List.append_assoc, parseOr]
    simp only [e₁, bind, Except.bind, e₂]
    rfl
  | orTailNil =>
    show (orLoop stop _ ([] ++ rest)).map Subtype.val = _
    rw [List.nil_append, orLoop_stop stop _ rest hf.2]
    rfl
  | @orTailCons left f e a t ha ht iha iht =>
    obtain ⟨h₀, e₀⟩ := advance_cons stop .or (a ++ (t ++ rest))
      (fun h => absurd h (ha.append_ne_nil rfl _)) (List.cons_ne_nil _ _)
    obtain ⟨h₁, e₁⟩ := map_val_eq_ok.mp
      (iha (t ++ rest) (ht.current_orTail_ne_and hf.1) fun h => hstop (List.append_eq_nil_iff.mp h).2)
    obtain ⟨h₂, e₂⟩ := map_val_eq_ok.mp (iht rest hf hstop)
    show (orLoop stop left (.or :: (a ++ t) ++ rest)).map Subtype.val = _
    rw [List.cons_append, List.append_assoc, orLoop, dif_pos (current_cons _ _)]
    simp only [e₀, bind, Except.bind, e₁, e₂]
    rfl
  | @and a t e₀ e ha ht iha iht =>
    obtain ⟨h₁, e₁⟩ := map_val_eq_ok.mp
      (iha (t ++ rest) trivial fun h => hstop (List.append_eq_nil_iff.mp h).2)
    obtain ⟨h₂, e₂⟩ := map_val_eq_ok.mp (iht rest hf hstop)
    show (parseAnd stop (a ++ t ++ rest)).map Subtype.val = _
    rw [List.append_assoc, parseAnd]
    simp only [e₁, bind, Except.bind, e₂]
    rfl
  | andTailNil =>
    show (andLoop stop _ ([] ++ rest)).map Subtype.val = _
    rw [List.nil_append, andLoop_stop stop _ rest hf]
    rfl
  | @andTailCons left f e a t ha ht iha iht =>
    obtain ⟨h₀, e₀⟩ := advance_cons stop .and (a ++ (t ++ rest))
      (fun h => absurd h (ha.append_ne_nil rfl _)) (List.cons_ne_nil _ _)
    obtain ⟨h₁, e₁⟩ := map_val_eq_ok.mp
      (iha (t ++ rest) trivial fun h => hstop (List.append_eq_nil_iff.mp h).2)
    obtain ⟨h₂, e₂⟩ := map_val_eq_ok.mp (iht rest hf hstop)
    show (andLoop stop left (.and :: (a ++ t) ++ rest)).map Subtype.val = _
    rw [List.cons_append, List.append_assoc, andLoop, dif_pos (current_cons _ _)]
    simp only [e₀, bind, Except.bind, e₁, e₂]
    rfl
  | @not ts e hts ih =>
    obtain ⟨h₀, e₀⟩ := advance_cons stop .not (ts ++ rest)
      (fun h => absurd h (hts.append_ne_nil rfl _)) (List.cons_ne_nil _ _)
    obtain ⟨h₁, e₁⟩ := map_val_eq_ok.mp (ih rest trivial hstop)
    show (parseNot stop (.not :: ts ++ rest)).map Subtype.val = _
    rw [List.cons_append, parseNot, dif_pos (current_cons _ _)]
    simp only [e₀, bind, Except.bind, e₁]
    rfl
  | @primary ts e hts ih =>
    have hcur : current (ts ++ rest) ≠ .not := by
      rcases hts.current_primary rest with hc | hc
      · rw [hc]
        exact Token.noConfusion
      · intro hn
        rw [hn] at hc
        cases hc
    show (parseNot stop (ts ++ rest)).map Subtype.val = _
    rw [parseNot, dif_neg hcur]
    exact ih rest trivial hstop
  | @paren ts e hts ih =>
    obtain ⟨h₀, e₀⟩ := advance_cons stop .lparen (ts ++ .rparen :: rest)
      (fun h => by cases ts <;> cases h) (List.cons_ne_nil _ _)
    obtain ⟨h₁, e₁⟩ := map_val_eq_ok.mp (ih (.rparen :: rest) ⟨Token.noConfusion, Token.noConfusion⟩
      fun h => by cases h)
    obtain ⟨h₂, e₂⟩ := advance_cons stop .rparen rest hstop (List.cons_ne_nil _ _)
    show (parsePrimary stop (.lparen :: (ts ++ [.rparen]) ++ rest)).map Subtype.val = _
    rw [List.cons_append, List.append_assoc, List.singleton_append, parsePrimary, dif_pos (current_cons _ _)]
    simp only [e₀, bind, Except.bind, e₁]
    rw [dif_pos (current_cons _ _)]
    simp only [e₂]
    rfl
  | @comparison t₁ t₂ v₁ v₂ op hv₁ hv₂ =>
    have hcur : current (t₁ :: .operator op :: t₂ :: rest) ≠ .lparen := by
      intro hl
      change t₁ = .lparen at hl
      rw [hl] at hv₁
      cases hv₁
    show (parsePrimary stop (t₁ :: .operator op :: t₂ :: rest)).map Subtype.val = _
    rw [parsePrimary, dif_neg hcur]
    exact parseComparison_cons stop op hv₁ hv₂ rest hstop

end Completeness

/-- A value with nothing after it is read as `TRUE`. -/
theorem parse_lone_value {t : Token} {v : Value} (hv : valueOf? t = some v) :
    Nonterminal.parse none .or [t] = .ok (.true, []) := by
  have hnot : current [t] ≠ .not := by
    intro h
    change t = .not at h
    rw [h] at hv
    cases hv
  have hlparen : current [t] ≠ .lparen := by
    intro h
    change t = .lparen at h
    rw [h] at hv
    cases hv
  obtain ⟨h₁, e₁⟩ := map_val_eq_ok.mp (parseValue_cons none hv [] fun _ => rfl)
  have hcmp : (parseComparison none [t]).map Subtype.val = .ok (.true, []) := by
    unfold parseComparison
    simp only [e₁, bind, Except.bind]
    split
    · rename_i h
      cases h
    · rfl
    · rename_i hne
      exact absurd rfl hne
  obtain ⟨h₂, e₂⟩ := map_val_eq_ok.mp hcmp
  show (parseOr none [t]).map Subtype.val = _
  rw [parseOr, parseAnd, parseNot, dif_neg hnot, parsePrimary, dif_neg hlparen, e₂]
  simp only [bind, Except.bind, andLoop_stop none .true [] Token.noConfusion, pure, Except.pure,
    orLoop_stop none .true [] Token.noConfusion]
  rfl

theorem Derives.or_of_primary {ts : List Token} {e : Expression} (h : Derives .primary ts e) :
    Derives .or ts e := by
  have h' := Derives.or (Derives.and (Derives.primary h) .andTailNil) .orTailNil
  rwa [List.append_nil, List.append_nil] at h'

theorem tokenize_nil (u : CharClasses) : Lexer.tokenize u [] = ([], none) := by
  rw [Lexer.tokenize]
  rfl

/-- `parse_expression` on an input whose tokens are not all lost to an error at the first one
is `parse_or` on them. -/
theorem parseExpression_eq {u : CharClasses} {s : List Char} {tokens : List Token} {stop : Option FilterError}
    (h : Lexer.tokenize u (u.trim s) = (tokens, stop)) (hne : tokens ≠ []) :
    parseExpression u s = (parseOr stop tokens).map fun r => r.1.1 := by
  have htrim : u.trim s ≠ [] := by
    intro ht
    rw [ht, tokenize_nil] at h
    exact hne (Prod.mk.inj h).1.symm
  obtain ⟨t, ts, rfl⟩ := List.exists_cons_of_ne_nil hne
  unfold parseExpression
  rw [if_neg htrim, h]

theorem parse_expression_accepts_unconsumed_tokens (u : CharClasses) :
    (∀ (s : List Char) (ts rest : List Token) (stop : Option FilterError) (e : Expression),
      Lexer.tokenize u (u.trim s) = (ts ++ rest, stop) → Derives .or ts e →
      current rest ≠ .and → current rest ≠ .or → (rest = [] → stop = none) →
      parseExpression u s = .ok e) ∧
    (∀ (s : List Char) (t : Token) (v : Value), Lexer.tokenize u (u.trim s) = ([t], none) →
      valueOf? t = some v → parseExpression u s = .ok .true) := by
  refine ⟨fun s ts rest stop e htok hd hand hor hstop => ?_, fun s t v htok hv => ?_⟩
  · obtain ⟨hlt, hparse⟩ := map_val_eq_ok.mp (parse_of_derives stop hd rest ⟨hand, hor⟩ hstop)
    rw [parseExpression_eq htok (hd.append_ne_nil rfl rest), hparse]
    rfl
  · obtain ⟨hlt, hparse⟩ := map_val_eq_ok.mp (parse_lone_value hv)
    rw [parseExpression_eq htok (List.cons_ne_nil t []), hparse]
    rfl

theorem trailing_tokens_and_lone_value_accepted :
    parseExpression CharClasses.ascii ['a', ' ', '>', ' ', '1', ' ', 'b'] =
        .ok (.comparison (.field ['a']) .gt (.integer 1)) ∧
      parseExpression CharClasses.ascii ['a', ' ', '>', ' ', '1', ' ', ')'] =
        .ok (.comparison (.field ['a']) .gt (.integer 1)) ∧
      parseExpression CharClasses.ascii ['a'] = .ok .true := by
  have hd : Derives .or [.identifier ['a'], .operator .gt, .integer 1]
      (.comparison (.field ['a']) .gt (.integer 1)) :=
    (Derives.comparison .gt rfl rfl).or_of_primary
  refine ⟨(parse_expression_accepts_unconsumed_tokens CharClasses.ascii).1 _ _ [.identifier ['b']] none _
      (by decide +kernel) hd Token.noConfusion Token.noConfusion (fun h => by cases h),
    (parse_expression_accepts_unconsumed_tokens CharClasses.ascii).1 _ _ [.rparen] none _
      (by decide +kernel) hd Token.noConfusion Token.noConfusion (fun h => by cases h),
    (parse_expression_accepts_unconsumed_tokens CharClasses.ascii).2 _ (.identifier ['a']) _
      (by decide +kernel) rfl⟩

end Hdds.Dds.Filter
