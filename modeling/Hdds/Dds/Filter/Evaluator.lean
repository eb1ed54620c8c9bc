import Hdds.Dds.Filter.Parser
import Hdds.Foundations.Text

/-! # The content-filter evaluator

`dds/filter/evaluator.rs`: a parsed filter evaluated against the field values of a sample and
the filter's parameters.

* The `HashMap` of fields is a lookup function; the parameters are a list of strings.
* `f64` arithmetic is Lean's `Float` on the bits an `F64` holds.
* `matches` reads the parameters through a `RwLock`, whose poisoning is left out.
-/

namespace Hdds.Dds.Filter
set_option autoImplicit false

/-- `FilterEvaluator`. -/
structure FilterEvaluator where
  expression : Expression
  parameters : List (List Char)

/-- `str::eq_ignore_ascii_case`. -/
def eqIgnoreAsciiCase (a b : List Char) : Bool := a.map Char.toLower = b.map Char.toLower

/-- `i64 as f64`. -/
def i64AsF64 (n : Int64) : F64 := F64.ofFloat (Float.ofInt n.toInt)

section Evaluate

variable (fields : List Char → Option FieldValue) (params : List (List Char))

/-- `FilterEvaluator::resolve_value`: a parameter is read as an integer, else a float, else a
boolean, else a string. -/
def resolveValue : Value → Except FilterError FieldValue
  | .integer n => .ok (.integer n)
  | .float f => .ok (.float f)
  | .string s => .ok (.string s)
  | .boolean b => .ok (.boolean b)
  | .parameter idx =>
    match params[idx]? with
    | none => .error (.parameterOutOfRange idx)
    | some paramStr =>
      match parseI64 paramStr with
      | some n => .ok (.integer n)
      | none =>
        match parseF64 paramStr with
        | some f => .ok (.float f)
        | none =>
          if eqIgnoreAsciiCase paramStr "true".toList then .ok (.boolean true)
          else if eqIgnoreAsciiCase paramStr "false".toList then .ok (.boolean false)
          else .ok (.string paramStr)
  | .field name =>
    match fields name with
    | some v => .ok v
    | none => .error (.unknownField name)

end Evaluate

/-- `FilterEvaluator::coerce_types`: an integer against a float becomes a float. -/
def coerceTypes (left right : FieldValue) : Except FilterError (FieldValue × FieldValue) :=
  match left, right with
  | .integer a, .float b => .ok (.float (i64AsF64 a), .float b)
  | .float a, .integer b => .ok (.float a, .float (i64AsF64 b))
  | _, _ => .ok (left, right)

/-- `FilterEvaluator::compare_ord`. -/
def compareOrd {α : Type} [LT α] [LE α] [DecidableRel (α := α) (· < ·)] [DecidableRel (α := α) (· ≤ ·)]
    [DecidableEq α] (a : α) (op : Operator) (b : α) : Bool :=
  match op with
  | .gt => decide (a > b)
  | .lt => decide (a < b)
  | .ge => decide (a ≥ b)
  | .le => decide (a ≤ b)
  | .eq => decide (a = b)
  | .ne => decide (a ≠ b)
  | .like => false

/-- `FilterEvaluator::compare_float`, with `EPSILON = 1e-9`. -/
def compareFloat (a : Float) (op : Operator) (b : Float) : Bool :=
  let epsilon : Float := 1e-9
  match op with
  | .gt => decide (a > b)
  | .lt => decide (a < b)
  | .ge => decide (a ≥ b) || decide ((a - b).abs < epsilon)
  | .le => decide (a ≤ b) || decide ((a - b).abs < epsilon)
  | .eq => decide ((a - b).abs < epsilon)
  | .ne => decide ((a - b).abs ≥ epsilon)
  | .like => false

/-- `simple_like_match`: `%` matches any run of characters, `_` any one character. -/
def likeMatches : List Char → List Char → Bool
  | [], [] => true
  | _ :: _, [] => false
  | [], pattern => pattern.all (· = '%')
  | c :: text, '%' :: pattern => likeMatches (c :: text) pattern || likeMatches text ('%' :: pattern)
  | _ :: text, '_' :: pattern => likeMatches text pattern
  | c :: text, p :: pattern => c = p && likeMatches text pattern
termination_by text pattern => text.length + pattern.length

/-- `FilterEvaluator::compare_like`. -/
def compareLike (left right : FieldValue) : Except FilterError Bool :=
  match left, right with
  | .string t, .string p => .ok (likeMatches t p)
  | _, _ => .error (.typeMismatch (.text "LIKE requires string operands"))

/-- `FilterEvaluator::compare`. -/
def compare (left : FieldValue) (op : Operator) (right : FieldValue) : Except FilterError Bool :=
  if op = .like then compareLike left right
  else do
    let (left, right) ← coerceTypes left right
    match left, right with
    | .integer a, .integer b => .ok (compareOrd a op b)
    | .float a, .float b => .ok (compareFloat a.toFloat op b.toFloat)
    | .string a, .string b => .ok (compareOrd a op b)
    | .boolean a, .boolean b =>
      match op with
      | .eq => .ok (a == b)
      | .ne => .ok (a != b)
      | _ => .error (.typeMismatch (.text "Boolean only supports = and <>"))
    | left, right => .error (.typeMismatch (.cannotCompare left right))

section Evaluate

variable (fields : List Char → Option FieldValue) (params : List (List Char))

/-- `FilterEvaluator::evaluate`, with AND and OR short-circuiting. -/
def evaluate : Expression → Except FilterError Bool
  | .true => .ok true
  | .comparison left op right => do
    let leftVal ← resolveValue fields params left
    let rightVal ← resolveValue fields params right
    compare leftVal op rightVal
  | .and left right => do
    let l ← evaluate left
    if !l then return false
    evaluate right
  | .or left right => do
    let l ← evaluate left
    if l then return true
    evaluate right
  | .not inner => do
    let val ← evaluate inner
    return !val

end Evaluate

/-- `FilterEvaluator::matches_with_params`. -/
def FilterEvaluator.matchesWithParams (ev : FilterEvaluator) (fields : List Char → Option FieldValue)
    (params : List (List Char)) : Except FilterError Bool :=
  evaluate fields params ev.expression

/-- `FilterEvaluator::matches`. -/
def FilterEvaluator.matches (ev : FilterEvaluator) (fields : List Char → Option FieldValue) :
    Except FilterError Bool :=
  evaluate fields ev.parameters ev.expression

/-! ## Integer filters

A filter whose comparisons all read integers means the Boolean combination of integer
comparisons. `Unsigned` fields fall outside it: `coerce_types` promotes only between
`Integer` and `Float`, so an `Unsigned` field never compares with an integer operand. -/

def Operator.test : Operator → Int → Int → Bool
  | .gt, x, y => decide (x > y)
  | .lt, x, y => decide (x < y)
  | .ge, x, y => decide (x ≥ y)
  | .le, x, y => decide (x ≤ y)
  | .eq, x, y => decide (x = y)
  | .ne, x, y => decide (x ≠ y)
  | .like, _, _ => false

/-- Every comparison of the expression has operands satisfying `P` and is not LIKE. -/
def Expression.Operands (P : Value → Prop) : Expression → Prop
  | .comparison left op right => P left ∧ P right ∧ op ≠ .like
  | .and a b => a.Operands P ∧ b.Operands P
  | .or a b => a.Operands P ∧ b.Operands P
  | .not a => a.Operands P
  | .true => True

def Expression.holds (val : Value → Int) : Expression → Bool
  | .comparison left op right => op.test (val left) (val right)
  | .and a b => a.holds val && b.holds val
  | .or a b => a.holds val || b.holds val
  | .not a => !a.holds val
  | .true => Bool.true

def FieldValue.toInt? : FieldValue → Option Int
  | .integer n => some n.toInt
  | .unsigned n => some n.toNat
  | _ => none

theorem compareOrd_int64 (a b : Int64) (op : Operator) :
    compareOrd a op b = op.test a.toInt b.toInt := by
  cases op <;>
    simp [compareOrd, Operator.test, Int64.lt_iff_toInt_lt, Int64.le_iff_toInt_le, ← Int64.toInt_inj]

theorem compare_integer (a b : Int64) {op : Operator} (hop : op ≠ .like) :
    compare (.integer a) op (.integer b) = .ok (op.test a.toInt b.toInt) := by
  rw [compare, if_neg hop, ← compareOrd_int64]
  rfl

theorem compare_unsigned_integer (u : UInt64) (n : Int64) {op : Operator} (hop : op ≠ .like) :
    compare (.unsigned u) op (.integer n) =
        .error (.typeMismatch (.cannotCompare (.unsigned u) (.integer n))) ∧
      compare (.integer n) op (.unsigned u) =
        .error (.typeMismatch (.cannotCompare (.integer n) (.unsigned u))) := by
  constructor <;> rw [compare, if_neg hop] <;> rfl

section Integers

variable (fields : List Char → Option FieldValue) (params : List (List Char))

/-- An operand that resolves to an `Integer`: a literal, a parameter written as an `i64`, or a
field holding one. -/
def IntegerOperand : Value → Prop
  | .integer _ => True
  | .parameter idx => ∃ p n, params[idx]? = some p ∧ parseI64 p = some n
  | .field name => ∃ n, fields name = some (.integer n)
  | _ => False

def operandValue : Value → Int
  | .integer n => n.toInt
  | .parameter idx => ((params[idx]?.bind parseI64).map Int64.toInt).getD 0
  | .field name => ((fields name).bind FieldValue.toInt?).getD 0
  | _ => 0

theorem resolveValue_of_integerOperand {v : Value} (h : IntegerOperand fields params v) :
    ∃ n, resolveValue fields params v = .ok (.integer n) ∧
      n.toInt = operandValue fields params v := by
  cases v with
  | integer n => exact ⟨n, rfl, rfl⟩
  | parameter idx =>
    obtain ⟨p, n, hp, hn⟩ := h
    refine ⟨n, ?_, ?_⟩
    · simp only [resolveValue, hp, hn]
    · simp only [operandValue, hp, Option.bind_some, hn, Option.map_some, Option.getD_some]
  | field name =>
    obtain ⟨n, hn⟩ := h
    refine ⟨n, ?_, ?_⟩
    · simp only [resolveValue, hn]
    · simp only [operandValue, hn, Option.bind_some, FieldValue.toInt?, Option.getD_some]
  | float | string | boolean => cases h

theorem evaluate_eq_holds (e : Expression) (h : e.Operands (IntegerOperand fields params)) :
    evaluate fields params e = .ok (e.holds (operandValue fields params)) := by
  induction e with
  | comparison left op right =>
    obtain ⟨hl, hr, hop⟩ := h
    obtain ⟨a, ha, hav⟩ := resolveValue_of_integerOperand fields params hl
    obtain ⟨b, hb, hbv⟩ := resolveValue_of_integerOperand fields params hr
    simp only [evaluate, ha, hb, bind, Except.bind, compare_integer a b hop, Expression.holds,
      hav, hbv]
  -- the short circuit gives the value of `&&` and `||` either way the left side comes out
  | and a b iha ihb =>
    simp only [evaluate, iha h.1, ihb h.2, bind, Except.bind, Expression.holds]
    cases a.holds (operandValue fields params) <;> rfl
  | or a b iha ihb =>
    simp only [evaluate, iha h.1, ihb h.2, bind, Except.bind, Expression.holds]
    cases a.holds (operandValue fields params) <;> rfl
  | not a ih =>
    simp only [evaluate, ih h, bind, Except.bind, Expression.holds]
    rfl
  | true => rfl

end Integers

theorem integer_filters_fail_on_unsigned_fields :
    (∀ (ev : FilterEvaluator) (fields : List Char → Option FieldValue) (params : List (List Char)),
      ev.expression.Operands (IntegerOperand fields params) →
      ev.matchesWithParams fields params = .ok (ev.expression.holds (operandValue fields params))) ∧
    (∀ (fields : List Char → Option FieldValue) (params : List (List Char)) (name : List Char)
      (u : UInt64) (op : Operator) (operand : Value) (n : Int64), op ≠ .like →
      fields name = some (.unsigned u) → resolveValue fields params operand = .ok (.integer n) →
      (⟨.comparison (.field name) op operand, params⟩ : FilterEvaluator).matchesWithParams
          fields params = .error (.typeMismatch (.cannotCompare (.unsigned u) (.integer n))) ∧
        (⟨.comparison operand op (.field name), params⟩ : FilterEvaluator).matchesWithParams
          fields params = .error (.typeMismatch (.cannotCompare (.integer n) (.unsigned u)))) := by
  refine ⟨fun ev fields params h => evaluate_eq_holds fields params ev.expression h,
    fun fields params name u op operand n hop hu hn => ?_⟩
  have hname : resolveValue fields params (.field name) = .ok (.unsigned u) := by
    simp only [resolveValue, hu]
  obtain ⟨h₁, h₂⟩ := compare_unsigned_integer u n hop
  constructor
  · simp only [FilterEvaluator.matchesWithParams, evaluate, hname, hn, bind, Except.bind, h₁]
  · simp only [FilterEvaluator.matchesWithParams, evaluate, hname, hn, bind, Except.bind, h₂]

/-- `sensor_id > 3` fails on a sensor id stored by `from_u32` and holds on one stored by
`from_i32`. -/
theorem unsigned_five_not_comparable_with_three :
    (⟨.comparison (.field ['x']) .gt (.integer 3), []⟩ : FilterEvaluator).matchesWithParams
        (fun name => if name = ['x'] then some (.unsigned 5) else none) [] =
      .error (.typeMismatch (.cannotCompare (.unsigned 5) (.integer 3))) ∧
    (⟨.comparison (.field ['x']) .gt (.integer 3), []⟩ : FilterEvaluator).matchesWithParams
        (fun name => if name = ['x'] then some (.integer 5) else none) [] = .ok true := by
  refine ⟨(integer_filters_fail_on_unsigned_fields.2 _ [] ['x'] 5 .gt (.integer 3) 3
      Operator.noConfusion (by simp) rfl).1, ?_⟩
  rw [integer_filters_fail_on_unsigned_fields.1 _ _ []
    (by simp [Expression.Operands, IntegerOperand])]
  decide

/-! ## LIKE

The pattern of a LIKE comparison denotes a language: the concatenation of the languages of its
characters. `simple_like_match` decides membership in it; it terminates because each recursive
call drops a character of the text or of the pattern. -/

/-- What one pattern character stands for: `%` any string, `_` any one character, any other
character itself. -/
def likeAtom (c : Char) : Language Char :=
  if c = '%' then ⊤ else if c = '_' then Language.anyLetter else {[c]}

/-- The language of a LIKE pattern: the concatenation of its characters' languages. -/
def likeLanguage (pattern : List Char) : Language Char :=
  (pattern.map likeAtom).prod

theorem likeLanguage_cons (c : Char) (pattern : List Char) :
    likeLanguage (c :: pattern) = likeAtom c * likeLanguage pattern := by
  simp [likeLanguage]

theorem likeAtom_percent : likeAtom '%' = ⊤ := rfl

theorem likeAtom_underscore : likeAtom '_' = Language.anyLetter := rfl

theorem likeAtom_of_ne {c : Char} (h₁ : c ≠ '%') (h₂ : c ≠ '_') : likeAtom c = {[c]} := by
  simp [likeAtom, h₁, h₂]

theorem nil_mem_likeAtom (c : Char) : [] ∈ likeAtom c ↔ c = '%' := by
  unfold likeAtom
  split_ifs with h₁ h₂
  · exact ⟨fun _ => h₁, fun _ => trivial⟩
  · exact ⟨fun h => absurd (h : ([] : List Char).length = 1) Nat.zero_ne_one, fun h => absurd h h₁⟩
  · exact ⟨fun h => absurd (h : [] = [c]).symm (List.cons_ne_nil c []), fun h => absurd h h₁⟩

theorem nil_mem_likeLanguage (pattern : List Char) :
    [] ∈ likeLanguage pattern ↔ pattern.all (· = '%') = true := by
  induction pattern with
  | nil => simp [likeLanguage]
  | cons c pattern ih =>
    rw [likeLanguage_cons, Language.nil_mem_mul_iff, nil_mem_likeAtom, ih, List.all_cons,
      Bool.and_eq_true, decide_eq_true_iff]

/-- `likeMatches` follows its own recursion: the two branches of `%` are the two ways a word of
`⊤ * L` can start. -/
theorem likeMatches_iff (text pattern : List Char) :
    likeMatches text pattern = true ↔ text ∈ likeLanguage pattern := by
  fun_induction likeMatches text pattern with
  | case1 => simp [likeLanguage]
  | case2 => simp [likeLanguage]
  | case3 => exact (nil_mem_likeLanguage _).symm
  | case4 c text pattern ih₁ ih₂ =>
    rw [Bool.or_eq_true, ih₁, ih₂, likeLanguage_cons, likeAtom_percent,
      Language.cons_mem_top_mul_iff]
  | case5 c text pattern ih =>
    rw [ih, likeLanguage_cons, likeAtom_underscore, Language.cons_mem_length_one_mul_iff]
  | case6 c text p pattern h₁ h₂ ih =>
    rw [Bool.and_eq_true, decide_eq_true_iff, ih, likeLanguage_cons, likeAtom_of_ne h₁ h₂,
      Language.cons_mem_singleton_mul_iff]

example : likeMatches "hello".toList "h_llo".toList = true := by decide +kernel

example : likeMatches "hello".toList "h_o".toList = false := by decide +kernel

theorem like_match_decides_pattern_language (text pattern : List Char) :
    (likeMatches text pattern = true ↔ text ∈ likeLanguage pattern) ∧
      compare (.string text) .like (.string pattern) = .ok (likeMatches text pattern) :=
  ⟨likeMatches_iff text pattern, rfl⟩

end Hdds.Dds.Filter
