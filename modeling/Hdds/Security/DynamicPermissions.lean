import Hdds.Security.Access

/-! # Dynamic permissions: the permission file and the access decision

`security/permissions/dynamic.rs`: the line-based permission file (`parse_permission_file`,
`parse_rule_line`, `parse_pattern_and_partitions`) and the decision `check_action` over the
parsed document, with `topic_matches` and `partition_matches`.

* The text is a character list; byte offsets of the source (`line[1..len - 1]`,
  `topic.as_bytes()[prefix.len()]`) fall next to ASCII characters and become character
  positions.
* The parser threads a `ParseState` through the lines with their numbers; every error is a
  `ConfigError` carrying the message of the source. The document's load time is not read by
  `check_action` and is left out.
-/

namespace Hdds.Security
open Text
set_option autoImplicit false

/-- `RuleAction`. -/
inductive RuleAction
  | Publish
  | Subscribe
deriving DecidableEq, Repr

/-- `PermissionRule`. -/
structure PermissionRule where
  topicPattern : List Char
  partitions : List (List Char)
  action : RuleAction
  allow : Bool
deriving DecidableEq, Repr

/-- `PermissionSet`. -/
structure PermissionSet where
  subjectName : List Char
  rules : List PermissionRule
  defaultDeny : Bool
deriving DecidableEq, Repr

/-- `PermissionDocument`. -/
structure PermissionDocument where
  grants : List PermissionSet
deriving DecidableEq, Repr

/-! ## Matching -/

/-- The `prefix/*` and `prefix/**` cases of `topic_matches`: the topic continues the prefix
with a `/`. -/
def slashPrefixMatch (pre topic : List Char) : Bool :=
  pre.isPrefixOf topic && decide (pre.length < topic.length) && topic[pre.length]? == some '/'

/-- `topic_matches`. -/
def topicMatches (pattern topic : List Char) : Bool :=
  if pattern = ['*'] ∨ pattern = ['*', '*'] then true
  else if pattern = topic then true
  else
    match stripSuffix? ['/', '*'] pattern with
    | some pre => slashPrefixMatch pre topic
    | none =>
      match stripSuffix? ['/', '*', '*'] pattern with
      | some pre => slashPrefixMatch pre topic
      | none => false

/-- `partition_matches`. -/
def partitionMatches (rulePartitions : List (List Char)) (partition : List Char) : Bool :=
  if rulePartitions.isEmpty then true
  else if partition.isEmpty then rulePartitions.isEmpty
  else rulePartitions.any (· == partition)

/-- The action `check_action` is asked about. -/
def actionOf (isPublish : Bool) : RuleAction := if isPublish then .Publish else .Subscribe

/-- The test `check_action` applies to a rule in its deny pass (`allow = false`) and its allow
pass (`allow = true`). -/
def ruleApplies (targetAction : RuleAction) (topic partition : List Char) (allow : Bool)
    (rule : PermissionRule) : Bool :=
  rule.action == targetAction && rule.allow == allow &&
    topicMatches rule.topicPattern topic && partitionMatches rule.partitions partition

/-- `check_action`: the first grant of the subject decides, deny rules before allow rules, then
its default. -/
def checkAction (doc : PermissionDocument) (subject topic partition : List Char)
    (isPublish : Bool) : Bool :=
  let targetAction := actionOf isPublish
  match doc.grants.find? (·.subjectName == subject) with
  | none => false
  | some permSet =>
    if permSet.rules.any (ruleApplies targetAction topic partition false) then false
    else if permSet.rules.any (ruleApplies targetAction topic partition true) then true
    else !permSet.defaultDeny

/-! ## Parsing -/

/-- The message prefix `Line {n}: ` of every parse error, for the line at index `lineNum`. -/
def linePrefix (lineNum : ℕ) : String := "Line " ++ toString (lineNum + 1) ++ ": "

/-- `parse_pattern_and_partitions`: split at the first `partitions=` (eleven characters). -/
def parsePatternAndPartitions (input : List Char) : List Char × List (List Char) :=
  match find? ['p', 'a', 'r', 't', 'i', 't', 'i', 'o', 'n', 's', '='] input with
  | some idx =>
    (trim (input.take idx),
      (((input.drop (idx + 11)).splitOn ',').map trim).filter (!·.isEmpty))
  | none => (trim input, [])

/-- The verdict word of a rule line and what follows it. -/
def ruleVerdict? (line : List Char) : Option (Bool × List Char) :=
  match stripPrefix? ['a', 'l', 'l', 'o', 'w', ' '] line with
  | some r => some (true, r)
  | none => (stripPrefix? ['d', 'e', 'n', 'y', ' '] line).map (false, ·)

/-- The action word of a rule line and what follows it. -/
def ruleAction? (rest : List Char) : Option (RuleAction × List Char) :=
  match stripPrefix? ['p', 'u', 'b', 'l', 'i', 's', 'h', ':'] rest with
  | some r => some (.Publish, trim r)
  | none => (stripPrefix? ['s', 'u', 'b', 's', 'c', 'r', 'i', 'b', 'e', ':'] rest).map (.Subscribe, trim ·)

/-- `parse_rule_line`. -/
def parseRuleLine (line : List Char) (lineNum : ℕ) : Except SecurityError PermissionRule :=
  match ruleVerdict? line with
  | none => .error (.ConfigError (linePrefix lineNum ++
      "expected \x27allow\x27 or \x27deny\x27 rule, got: " ++ String.ofList line))
  | some (isAllow, rest) =>
    match ruleAction? rest with
    | none => .error (.ConfigError (linePrefix lineNum ++
        "expected \x27publish:\x27 or \x27subscribe:\x27, got: " ++ String.ofList rest))
    | some (ruleAction, patternAndRest) =>
      let (pattern, partitions) := parsePatternAndPartitions patternAndRest
      if pattern.isEmpty then .error (.ConfigError (linePrefix lineNum ++ "empty topic pattern"))
      else .ok ⟨pattern, partitions, ruleAction, isAllow⟩

/-- The state of the loop of `parse_permission_file`. -/
structure ParseState where
  grants : List PermissionSet
  currentSubject : Option (List Char)
  currentRules : List PermissionRule
  currentDefaultDeny : Bool
deriving DecidableEq, Repr

namespace ParseState

/-- The state before the first line. -/
def init : ParseState := ⟨[], none, [], true⟩

/-- The grants with the open subject's block flushed. -/
def flush (st : ParseState) : List PermissionSet :=
  match st.currentSubject with
  | some subject => st.grants ++ [⟨subject, st.currentRules, st.currentDefaultDeny⟩]
  | none => st.grants

end ParseState

/-- Whether a trimmed line is a subject header `[...]`. -/
def isHeader (line : List Char) : Bool := line.head? == some '[' && line.getLast? == some ']'

/-- A subject header: flush the open block and open the new one. -/
def parseHeader (st : ParseState) (lineNum : ℕ) (line : List Char) :
    Except SecurityError ParseState :=
  let flushed : ParseState := match st.currentSubject with
    | some subject =>
      { st with grants := st.grants ++ [⟨subject, st.currentRules, st.currentDefaultDeny⟩],
                currentSubject := none, currentRules := [] }
    | none => st
  let inner := (line.drop 1).dropLast
  match stripPrefix? ['s', 'u', 'b', 'j', 'e', 'c', 't', ':'] inner with
  | none => .error (.ConfigError (linePrefix lineNum ++ "expected [subject: ...], got: " ++
      String.ofList line))
  | some stripped =>
    let subject := trim stripped
    if subject.isEmpty then .error (.ConfigError (linePrefix lineNum ++ "empty subject name"))
    else .ok { flushed with currentSubject := some subject, currentDefaultDeny := true }

/-- One line of `parse_permission_file`. -/
def parseLine (st : ParseState) (lineNum : ℕ) (rawLine : List Char) :
    Except SecurityError ParseState :=
  let line := trim rawLine
  if line.isEmpty || line.head? == some '#' then .ok st
  else if isHeader line then parseHeader st lineNum line
  else if st.currentSubject.isNone then
    .error (.ConfigError (linePrefix lineNum ++ "rule outside of [subject:] block: " ++
      String.ofList line))
  else
    match stripPrefix? ['d', 'e', 'f', 'a', 'u', 'l', 't', ':'] line with
    | some rest =>
      let val := trim rest
      if val = ['d', 'e', 'n', 'y'] then .ok { st with currentDefaultDeny := true }
      else if val = ['a', 'l', 'l', 'o', 'w'] then .ok { st with currentDefaultDeny := false }
      else .error (.ConfigError (linePrefix lineNum ++ "invalid default value \x27" ++
        String.ofList val ++ "\x27, expected \x27allow\x27 or \x27deny\x27"))
    | none => do
      let rule ← parseRuleLine line lineNum
      pure { st with currentRules := st.currentRules ++ [rule] }

/-- The loop of `parse_permission_file` from the line numbered `lineNum`. -/
def parseLines (st : ParseState) : ℕ → List (List Char) → Except SecurityError ParseState
  | _, [] => .ok st
  | lineNum, rawLine :: rest => do
    let st ← parseLine st lineNum rawLine
    parseLines st (lineNum + 1) rest

/-- `parse_permission_file`. -/
def parsePermissionFile (content : List Char) : Except SecurityError PermissionDocument := do
  let st ← parseLines ParseState.init 0 (lines content)
  pure ⟨st.flush⟩


/-! ## Matching, declaratively -/

/-- The documented language of a topic pattern: `*` and `**` match every topic, a pattern
matches itself, and `Q/*` or `Q/**` match every topic `Q/r`. -/
def TopicIn (pattern topic : List Char) : Prop :=
  pattern = ['*'] ∨ pattern = ['*', '*'] ∨ pattern = topic ∨
    ∃ q r, (pattern = q ++ ['/', '*'] ∨ pattern = q ++ ['/', '*', '*']) ∧ topic = q ++ '/' :: r

theorem slashPrefixMatch_iff {pre topic : List Char} :
    slashPrefixMatch pre topic = true ↔ ∃ r, topic = pre ++ '/' :: r := by
  unfold slashPrefixMatch
  simp only [Bool.and_eq_true, List.isPrefixOf_iff_prefix, decide_eq_true_eq, beq_iff_eq]
  constructor
  · rintro ⟨⟨⟨u, rfl⟩, hlen⟩, hslash⟩
    rw [List.getElem?_append_right le_rfl, Nat.sub_self] at hslash
    cases u with
    | nil => simp at hlen
    | cons c r =>
      simp only [List.getElem?_cons_zero, Option.some.injEq] at hslash
      exact ⟨r, by rw [hslash]⟩
  · rintro ⟨r, rfl⟩
    refine ⟨⟨List.prefix_append _ _, by simp⟩, ?_⟩
    rw [List.getElem?_append_right le_rfl, Nat.sub_self]
    rfl

/-- A pattern cannot end both in `/*` and in `/**`. -/
theorem append_slash_star_ne (pre q : List Char) : pre ++ ['/', '*'] ≠ q ++ ['/', '*', '*'] := by
  intro h
  have h' := congrArg List.reverse h
  simp at h'

theorem topicMatches_iff (pattern topic : List Char) :
    topicMatches pattern topic = true ↔ TopicIn pattern topic := by
  unfold topicMatches TopicIn
  split
  · rename_i hstar
    simp only [true_iff]
    rcases hstar with h | h
    · exact Or.inl h
    · exact Or.inr (Or.inl h)
  · rename_i hstar
    push Not at hstar
    split
    · rename_i heq
      simp [heq]
    · rename_i hne
      simp only [hstar.1, hstar.2, hne, false_or]
      cases hs : stripSuffix? ['/', '*'] pattern with
      | some pre =>
        rw [stripSuffix?_eq_some] at hs
        subst hs
        rw [slashPrefixMatch_iff]
        constructor
        · rintro ⟨r, rfl⟩
          exact ⟨pre, r, Or.inl rfl, rfl⟩
        · rintro ⟨q, r, hq | hq, rfl⟩
          · obtain rfl := List.append_inj_left' hq rfl
            exact ⟨r, rfl⟩
          · exact absurd hq (append_slash_star_ne pre q)
      | none =>
        cases hs2 : stripSuffix? ['/', '*', '*'] pattern with
        | some pre =>
          rw [stripSuffix?_eq_some] at hs2
          subst hs2
          rw [slashPrefixMatch_iff]
          constructor
          · rintro ⟨r, rfl⟩
            exact ⟨pre, r, Or.inr rfl, rfl⟩
          · rintro ⟨q, r, hq | hq, rfl⟩
            · exact absurd hq.symm (append_slash_star_ne q pre)
            · obtain rfl := List.append_inj_left' hq rfl
              exact ⟨r, rfl⟩
        | none =>
          simp only [Bool.false_eq_true, false_iff, not_exists, not_and]
          rintro q r (hq | hq) -
          · exact stripSuffix?_eq_none.mp hs ⟨q, hq.symm⟩
          · exact stripSuffix?_eq_none.mp hs2 ⟨q, hq.symm⟩

theorem partitionMatches_iff {rulePartitions : List (List Char)} {partition : List Char}
    (hnames : [] ∉ rulePartitions) :
    partitionMatches rulePartitions partition = true ↔
      rulePartitions = [] ∨ partition ∈ rulePartitions := by
  unfold partitionMatches
  by_cases hL : rulePartitions = []
  · simp [hL]
  · by_cases hp : partition = []
    · subst hp
      simp [hL, hnames]
    · simp [hL, hp, List.any_eq_true]

theorem nil_not_mem_partitions (input : List Char) : [] ∉ (parsePatternAndPartitions input).2 := by
  unfold parsePatternAndPartitions
  split <;> simp

/-! ## Rule lines -/

/-- The word a rule line starts with. -/
def verdictWord : Bool → List Char
  | true => ['a', 'l', 'l', 'o', 'w', ' ']
  | false => ['d', 'e', 'n', 'y', ' ']

/-- The word naming the action of a rule line. -/
def actionWord : RuleAction → List Char
  | .Publish => ['p', 'u', 'b', 'l', 'i', 's', 'h', ':']
  | .Subscribe => ['s', 'u', 'b', 's', 'c', 'r', 'i', 'b', 'e', ':']

theorem verdictWord_append_inj {allow allow' : Bool} {rest rest' : List Char}
    (h : verdictWord allow ++ rest = verdictWord allow' ++ rest') : allow = allow' ∧ rest = rest' := by
  cases allow <;> cases allow'
  · exact ⟨rfl, List.append_cancel_left h⟩
  · have := congrArg List.head? h
    simp [verdictWord] at this
  · have := congrArg List.head? h
    simp [verdictWord] at this
  · exact ⟨rfl, List.append_cancel_left h⟩

theorem actionWord_append_inj {action action' : RuleAction} {rest rest' : List Char}
    (h : actionWord action ++ rest = actionWord action' ++ rest') :
    action = action' ∧ rest = rest' := by
  cases action <;> cases action'
  · exact ⟨rfl, List.append_cancel_left h⟩
  · have := congrArg List.head? h
    simp [actionWord] at this
  · have := congrArg List.head? h
    simp [actionWord] at this
  · exact ⟨rfl, List.append_cancel_left h⟩

theorem ruleVerdict?_verdictWord (allow : Bool) (rest : List Char) :
    ruleVerdict? (verdictWord allow ++ rest) = some (allow, rest) := by
  unfold ruleVerdict?
  cases allow
  · have hallow : stripPrefix? ['a', 'l', 'l', 'o', 'w', ' '] (verdictWord false ++ rest) = none := by
      rw [stripPrefix?_eq_none]
      rintro ⟨t, ht⟩
      have := congrArg List.head? ht
      simp [verdictWord] at this
    rw [hallow, verdictWord, stripPrefix?_eq_some.mpr rfl]
    rfl
  · rw [verdictWord, stripPrefix?_eq_some.mpr rfl]

theorem ruleVerdict?_eq_some {line rest : List Char} {allow : Bool} :
    ruleVerdict? line = some (allow, rest) ↔ line = verdictWord allow ++ rest := by
  constructor
  · intro h
    unfold ruleVerdict? at h
    cases ha : stripPrefix? ['a', 'l', 'l', 'o', 'w', ' '] line with
    | some r =>
      rw [ha, Option.some.injEq, Prod.mk.injEq] at h
      obtain ⟨rfl, rfl⟩ := h
      exact stripPrefix?_eq_some.mp ha
    | none =>
      rw [ha] at h
      obtain ⟨r, hd, hr⟩ := Option.map_eq_some_iff.mp h
      rw [Prod.mk.injEq] at hr
      obtain ⟨rfl, rfl⟩ := hr
      exact stripPrefix?_eq_some.mp hd
  · rintro rfl
    exact ruleVerdict?_verdictWord allow rest

theorem ruleAction?_actionWord (action : RuleAction) (rest : List Char) :
    ruleAction? (actionWord action ++ rest) = some (action, trim rest) := by
  unfold ruleAction?
  cases action
  · rw [actionWord, stripPrefix?_eq_some.mpr rfl]
  · have hpub : stripPrefix? ['p', 'u', 'b', 'l', 'i', 's', 'h', ':'] (actionWord .Subscribe ++ rest) = none := by
      rw [stripPrefix?_eq_none]
      rintro ⟨t, ht⟩
      have := congrArg List.head? ht
      simp [actionWord] at this
    rw [hpub, actionWord, stripPrefix?_eq_some.mpr rfl]
    rfl

theorem ruleAction?_eq_some {rest r : List Char} {action : RuleAction} :
    ruleAction? rest = some (action, r) ↔ ∃ r₀, rest = actionWord action ++ r₀ ∧ r = trim r₀ := by
  constructor
  · intro h
    unfold ruleAction? at h
    cases hp : stripPrefix? ['p', 'u', 'b', 'l', 'i', 's', 'h', ':'] rest with
    | some r₀ =>
      rw [hp, Option.some.injEq, Prod.mk.injEq] at h
      obtain ⟨rfl, rfl⟩ := h
      exact ⟨r₀, stripPrefix?_eq_some.mp hp, rfl⟩
    | none =>
      rw [hp] at h
      obtain ⟨r₀, hs, hr⟩ := Option.map_eq_some_iff.mp h
      rw [Prod.mk.injEq] at hr
      obtain ⟨rfl, rfl⟩ := hr
      exact ⟨r₀, stripPrefix?_eq_some.mp hs, rfl⟩
  · rintro ⟨r₀, rfl, rfl⟩
    exact ruleAction?_actionWord action r₀

/-- What a rule line `allow|deny action: REST` says about `topic` in `partition`: its verdict,
when REST's pattern matches the topic and its partition list (if any, blank names dropped) is
empty or names the partition. -/
def LineSays (allow : Bool) (action : RuleAction) (topic partition line : List Char) : Prop :=
  ∃ rest, line = verdictWord allow ++ actionWord action ++ rest ∧
    TopicIn (parsePatternAndPartitions (trim rest)).1 topic ∧
      ((parsePatternAndPartitions (trim rest)).2 = [] ∨
        partition ∈ (parsePatternAndPartitions (trim rest)).2)

/-- A parsed rule applies exactly when its line says so. -/
theorem parseRuleLine_applies {line : List Char} {lineNum : ℕ} {rule : PermissionRule}
    (h : parseRuleLine line lineNum = .ok rule) (allow : Bool) (action : RuleAction)
    (topic partition : List Char) :
    (rule.action = action ∧ rule.allow = allow ∧ topicMatches rule.topicPattern topic = true ∧
      partitionMatches rule.partitions partition = true) ↔
      LineSays allow action topic partition line := by
  unfold parseRuleLine at h
  cases hv : ruleVerdict? line with
  | none => simp [hv] at h
  | some vr =>
    obtain ⟨allow', rest⟩ := vr
    cases ha : ruleAction? rest with
    | none => simp [hv, ha] at h
    | some ar =>
      obtain ⟨action', r⟩ := ar
      simp only [hv, ha] at h
      split at h
      · cases h
      · cases h
        obtain ⟨r₀, rfl, rfl⟩ := ruleAction?_eq_some.mp ha
        rw [ruleVerdict?_eq_some] at hv
        subst hv
        rw [topicMatches_iff, partitionMatches_iff (nil_not_mem_partitions _)]
        constructor
        · rintro ⟨rfl, rfl, htopic, hpart⟩
          exact ⟨r₀, by rw [List.append_assoc], htopic, hpart⟩
        · rintro ⟨r₁, hline, htopic, hpart⟩
          rw [List.append_assoc] at hline
          obtain ⟨rfl, hrest⟩ := verdictWord_append_inj hline
          obtain ⟨rfl, rfl⟩ := actionWord_append_inj hrest
          exact ⟨rfl, rfl, htopic, hpart⟩

/-! ## What a permission file says -/

/-- `default:`. -/
def defaultWord : List Char := ['d', 'e', 'f', 'a', 'u', 'l', 't', ':']
/-- `allow`, the permissive default value. -/
def allowValue : List Char := ['a', 'l', 'l', 'o', 'w']

/-- A trimmed line the parser acts on: neither empty nor a comment. -/
def isSignificant (line : List Char) : Bool := !(line.isEmpty || line.head? == some '#')

/-- The significant lines of a file, trimmed, in order. -/
def significantLines (content : List Char) : List (List Char) :=
  ((lines content).map trim).filter isSignificant

/-- The subject a header line names. -/
def headerSubject (line : List Char) : List Char :=
  trim ((stripPrefix? ['s', 'u', 'b', 'j', 'e', 'c', 't', ':'] ((line.drop 1).dropLast)).getD [])

/-- The blocks of the lines read so far: the finished ones and the open one, each the subject of
its header with the lines below it. -/
structure Blocks where
  done : List (List Char × List (List Char))
  current : Option (List Char × List (List Char))

namespace Blocks

/-- No line read. -/
def empty : Blocks := ⟨[], none⟩

/-- Read one significant line: a header opens a block, any other line joins the open one. -/
def add (b : Blocks) (line : List Char) : Blocks :=
  if isHeader line then ⟨b.done ++ b.current.toList, some (headerSubject line, [])⟩
  else ⟨b.done, b.current.map fun blk => (blk.1, blk.2 ++ [line])⟩

/-- Every block, the open one last. -/
def all (b : Blocks) : List (List Char × List (List Char)) := b.done ++ b.current.toList

end Blocks

/-- The blocks of a file in file order. -/
def blocks (content : List Char) : List (List Char × List (List Char)) :=
  ((significantLines content).foldl Blocks.add Blocks.empty).all

/-- The lines of the first block headed by `subject`. -/
def firstBlock (content subject : List Char) : Option (List (List Char)) :=
  ((blocks content).find? (·.1 == subject)).map (·.2)

/-- The value of the last `default:` line of a block. -/
def lastDefault (body : List (List Char)) : Option (List Char) :=
  (body.filterMap fun line => (stripPrefix? defaultWord line).map trim).getLast?

/-- When the file lets `subject` act on `topic` in `partition`: its first block for the subject
has no deny line for it, and an allow line for it or a last default of `allow`. -/
def Permitted (content subject topic partition : List Char) (isPublish : Bool) : Prop :=
  ∃ body, firstBlock content subject = some body ∧
    (∀ line ∈ body, ¬ LineSays false (actionOf isPublish) topic partition line) ∧
    ((∃ line ∈ body, LineSays true (actionOf isPublish) topic partition line) ∨
      lastDefault body = some allowValue)

/-! ## The parser builds one permission set per block -/

/-- The rule a block line contributes: none for a `default:` line. -/
def ruleOf (line : List Char) : Option PermissionRule :=
  match stripPrefix? defaultWord line with
  | some _ => none
  | none => (parseRuleLine line 0).toOption

/-- The permission set of a block. -/
def blockSet (blk : List Char × List (List Char)) : PermissionSet :=
  ⟨blk.1, blk.2.filterMap ruleOf, lastDefault blk.2 != some allowValue⟩

/-- A block line the parser accepts: a `default:` line with a valid value, or a rule line. -/
def GoodLine (line : List Char) : Prop :=
  (∃ rest, stripPrefix? defaultWord line = some rest ∧
    (trim rest = ['d', 'e', 'n', 'y'] ∨ trim rest = allowValue)) ∨
  (stripPrefix? defaultWord line = none ∧ ∃ lineNum rule, parseRuleLine line lineNum = .ok rule)

theorem parseRuleLine_toOption (line : List Char) (n m : ℕ) :
    (parseRuleLine line n).toOption = (parseRuleLine line m).toOption := by
  unfold parseRuleLine
  cases ruleVerdict? line with
  | none => rfl
  | some vr =>
    obtain ⟨isAllow, rest⟩ := vr
    dsimp only
    cases ruleAction? rest with
    | none => rfl
    | some ar =>
      obtain ⟨ruleAction, patternAndRest⟩ := ar
      dsimp only
      split <;> rfl

theorem ruleOf_of_parse {line : List Char} {lineNum : ℕ} {rule : PermissionRule}
    (hd : stripPrefix? defaultWord line = none) (h : parseRuleLine line lineNum = .ok rule) :
    ruleOf line = some rule := by
  rw [ruleOf, hd, parseRuleLine_toOption line 0 lineNum, h]
  rfl

theorem lastDefault_append_default {body : List (List Char)} {line rest : List Char}
    (h : stripPrefix? defaultWord line = some rest) :
    lastDefault (body ++ [line]) = some (trim rest) := by
  simp [lastDefault, List.filterMap_append, h]

theorem lastDefault_append_rule {body : List (List Char)} {line : List Char}
    (h : stripPrefix? defaultWord line = none) : lastDefault (body ++ [line]) = lastDefault body := by
  simp [lastDefault, List.filterMap_append, h]

/-- The parser's state after some lines, against the blocks of those lines. -/
structure Tracks (st : ParseState) (b : Blocks) : Prop where
  grants : st.grants = b.done.map blockSet
  subject : st.currentSubject = b.current.map Prod.fst
  rules : ∀ blk, b.current = some blk → st.currentRules = blk.2.filterMap ruleOf
  noRules : b.current = none → st.currentRules = []
  defaultDeny : ∀ blk, b.current = some blk →
    st.currentDefaultDeny = (lastDefault blk.2 != some allowValue)
  good : ∀ blk ∈ b.all, ∀ line ∈ blk.2, GoodLine line

theorem tracks_init : Tracks ParseState.init Blocks.empty :=
  ⟨rfl, rfl, by simp [Blocks.empty], fun _ => rfl, by simp [Blocks.empty],
    by simp [Blocks.all, Blocks.empty]⟩

theorem Tracks.flush {st : ParseState} {b : Blocks} (h : Tracks st b) :
    st.flush = b.all.map blockSet := by
  unfold ParseState.flush Blocks.all
  cases hc : b.current with
  | none => simp [h.subject, hc, h.grants]
  | some blk =>
    simp only [h.subject, hc, Option.map_some, Option.toList_some, List.map_append, h.grants,
      List.map_cons, List.map_nil, List.append_cancel_left_eq]
    rw [h.rules blk hc, h.defaultDeny blk hc]
    rfl

theorem Tracks.header {st st' : ParseState} {b : Blocks} {lineNum : ℕ} {line : List Char}
    (h : Tracks st b) (hp : parseHeader st lineNum line = .ok st') (hhead : isHeader line = true) :
    Tracks st' (b.add line) := by
  unfold parseHeader at hp
  cases hs : stripPrefix? ['s', 'u', 'b', 'j', 'e', 'c', 't', ':'] ((line.drop 1).dropLast) with
  | none =>
    simp only [hs] at hp
    cases hp
  | some stripped =>
    simp only [hs] at hp
    split at hp
    · cases hp
    · cases hp
      have hsubject : headerSubject line = trim stripped := by
        simp only [headerSubject, hs, Option.getD_some]
      simp only [Blocks.add, hhead, if_true]
      cases hc : b.current with
      | none =>
        have hsub : st.currentSubject = none := by rw [h.subject, hc]; rfl
        simp only [hsub]
        refine ⟨by simp [h.grants], by simp [hsubject], ?_, by simp, ?_, ?_⟩
        · intro blk hblk
          cases hblk
          simpa using h.noRules hc
        · intro blk hblk
          cases hblk
          rfl
        · intro blk hblk line' hline
          simp only [Blocks.all, Option.toList_none, List.append_nil, Option.toList_some,
            List.mem_append, List.mem_singleton] at hblk
          rcases hblk with hblk | rfl
          · exact h.good blk (by simp [Blocks.all, hc, hblk]) line' hline
          · cases hline
      | some blk₀ =>
        have hsub : st.currentSubject = some blk₀.1 := by rw [h.subject, hc]; rfl
        simp only [hsub]
        refine ⟨?_, by simp [hsubject], ?_, by simp, ?_, ?_⟩
        · simp only [Option.toList_some, List.map_append, h.grants, List.map_cons, List.map_nil]
          rw [h.rules blk₀ hc, h.defaultDeny blk₀ hc]
          rfl
        · intro blk hblk
          cases hblk
          rfl
        · intro blk hblk
          cases hblk
          rfl
        · intro blk hblk line' hline
          simp only [Blocks.all, Option.toList_some, List.mem_append, List.mem_singleton] at hblk
          rcases hblk with hblk | rfl
          · exact h.good blk (by simpa [Blocks.all, hc] using hblk) line' hline
          · cases hline

/-- A line joining the open block. -/
theorem Tracks.addLine {st : ParseState} {b : Blocks} {blk : List Char × List (List Char)}
    {line : List Char} {rules : List PermissionRule} {dd : Bool}
    (h : Tracks st b) (hc : b.current = some blk)
    (hrules : rules = (blk.2 ++ [line]).filterMap ruleOf)
    (hdd : dd = (lastDefault (blk.2 ++ [line]) != some allowValue)) (hgood : GoodLine line) :
    Tracks { st with currentRules := rules, currentDefaultDeny := dd }
      ⟨b.done, some (blk.1, blk.2 ++ [line])⟩ := by
  refine ⟨h.grants, by simp [h.subject, hc], ?_, by simp, ?_, ?_⟩
  · rintro _ ⟨⟩
    exact hrules
  · rintro _ ⟨⟩
    exact hdd
  · intro blk' hblk' line' hline'
    simp only [Blocks.all, Option.toList_some, List.mem_append, List.mem_singleton] at hblk'
    rcases hblk' with hblk' | rfl
    · exact h.good blk' (by simp [Blocks.all, hblk']) line' hline'
    · simp only [List.mem_append, List.mem_singleton] at hline'
      rcases hline' with hline' | rfl
      · exact h.good blk (by simp [Blocks.all, hc]) line' hline'
      · exact hgood

theorem Tracks.line {st st' : ParseState} {b : Blocks} {lineNum : ℕ} {rawLine : List Char}
    (h : Tracks st b) (hp : parseLine st lineNum rawLine = .ok st') :
    Tracks st' (if isSignificant (trim rawLine) then b.add (trim rawLine) else b) := by
  unfold parseLine at hp
  by_cases hsig : isSignificant (trim rawLine) = true
  · have hsig' : ((trim rawLine).isEmpty || (trim rawLine).head? == some '#') = false := by
      simpa [isSignificant] using hsig
    rw [if_pos hsig]
    simp only [hsig', Bool.false_eq_true, if_false] at hp
    split at hp
    · rename_i hhead
      exact h.header hp hhead
    · rename_i hhead
      split at hp
      · cases hp
      · rename_i hsubj
        obtain ⟨blk, hc⟩ : ∃ blk, b.current = some blk := by
          cases hc : b.current with
          | none => simp [h.subject, hc] at hsubj
          | some blk => exact ⟨blk, rfl⟩
        have hadd : b.add (trim rawLine) = ⟨b.done, some (blk.1, blk.2 ++ [trim rawLine])⟩ := by
          simp [Blocks.add, hhead, hc]
        rw [hadd]
        -- a `default:` line sets the default, any other line must be a rule
        cases hd : stripPrefix? ['d', 'e', 'f', 'a', 'u', 'l', 't', ':'] (trim rawLine) with
        | some rest =>
          have hd' : stripPrefix? defaultWord (trim rawLine) = some rest := hd
          have hrules : st.currentRules = (blk.2 ++ [trim rawLine]).filterMap ruleOf := by
            rw [h.rules blk hc, List.filterMap_append]
            simp [ruleOf, hd']
          simp only [hd] at hp
          split at hp
          · rename_i hval
            cases hp
            exact h.addLine hc hrules (by rw [lastDefault_append_default hd', hval]; rfl)
              (Or.inl ⟨rest, hd', Or.inl hval⟩)
          · split at hp
            · rename_i hval
              cases hp
              exact h.addLine hc hrules (by rw [lastDefault_append_default hd', hval]; rfl)
                (Or.inl ⟨rest, hd', Or.inr hval⟩)
            · cases hp
        | none =>
          have hd' : stripPrefix? defaultWord (trim rawLine) = none := hd
          simp only [hd] at hp
          cases hr : parseRuleLine (trim rawLine) lineNum with
          | error e =>
            rw [hr] at hp
            cases hp
          | ok rule =>
            rw [hr] at hp
            cases hp
            exact h.addLine hc
              (by rw [h.rules blk hc, List.filterMap_append, List.filterMap_cons, ruleOf_of_parse hd' hr,
                List.filterMap_nil])
              (by rw [lastDefault_append_rule hd', h.defaultDeny blk hc])
              (Or.inr ⟨hd', lineNum, rule, hr⟩)
  · rw [if_neg hsig]
    have hskip : ((trim rawLine).isEmpty || (trim rawLine).head? == some '#') = true := by
      unfold isSignificant at hsig
      revert hsig
      cases ((trim rawLine).isEmpty || (trim rawLine).head? == some '#') <;> simp
    simp only [hskip, if_true] at hp
    cases hp
    exact h

theorem Tracks.lines {st st' : ParseState} {b : Blocks} {lineNum : ℕ} {ls : List (List Char)}
    (h : Tracks st b) (hp : parseLines st lineNum ls = .ok st') :
    Tracks st' (((ls.map trim).filter isSignificant).foldl Blocks.add b) := by
  induction ls generalizing st b lineNum with
  | nil =>
    cases hp
    exact h
  | cons rawLine rest ih =>
    cases hl : parseLine st lineNum rawLine with
    | error e =>
      simp only [parseLines, hl] at hp
      cases hp
    | ok mid =>
      simp only [parseLines, hl] at hp
      have hrest := ih (h.line hl) hp
      by_cases hsig : isSignificant (trim rawLine) = true
      · simpa [List.filter_cons, hsig] using hrest
      · simpa [List.filter_cons, hsig] using hrest

/-- A parsed file has one permission set per block, in file order, and every line of a block is
a valid default or rule line. -/
theorem parsePermissionFile_grants {content : List Char} {doc : PermissionDocument}
    (h : parsePermissionFile content = .ok doc) :
    doc.grants = (blocks content).map blockSet ∧
      ∀ blk ∈ blocks content, ∀ line ∈ blk.2, GoodLine line := by
  unfold parsePermissionFile at h
  cases hl : parseLines ParseState.init 0 (lines content) with
  | error e =>
    simp only [hl] at h
    cases h
  | ok st =>
    simp only [hl] at h
    cases h
    have ht := tracks_init.lines hl
    exact ⟨ht.flush, ht.good⟩

theorem default_ne_lineSays {line rest rest' : List Char} {allow : Bool}
    (hd : stripPrefix? defaultWord line = some rest) : line ≠ verdictWord allow ++ rest' := by
  rw [stripPrefix?_eq_some.mp hd]
  intro h
  cases allow <;> simp [defaultWord, verdictWord] at h

/-- The rules a block contributes apply exactly where its lines say so. -/
theorem ruleOf_applies {line : List Char} (hgood : GoodLine line) (allow : Bool)
    (action : RuleAction) (topic partition : List Char) :
    (∃ rule, ruleOf line = some rule ∧ ruleApplies action topic partition allow rule = true) ↔
      LineSays allow action topic partition line := by
  rcases hgood with ⟨rest, hd, -⟩ | ⟨hd, lineNum, rule, hr⟩
  · have hnone : ruleOf line = none := by simp [ruleOf, hd]
    simp only [hnone, reduceCtorEq, false_and, exists_false, false_iff]
    rintro ⟨rest', hline, -⟩
    exact default_ne_lineSays hd (by rw [hline, List.append_assoc])
  · rw [← parseRuleLine_applies hr, ruleOf_of_parse hd hr]
    simp [ruleApplies, and_assoc]

theorem any_ruleApplies_iff {body : List (List Char)} (hgood : ∀ line ∈ body, GoodLine line)
    (allow : Bool) (action : RuleAction) (topic partition : List Char) :
    (body.filterMap ruleOf).any (ruleApplies action topic partition allow) = true ↔
      ∃ line ∈ body, LineSays allow action topic partition line := by
  simp only [List.any_eq_true, List.mem_filterMap]
  constructor
  · rintro ⟨rule, ⟨line, hline, hrule⟩, happ⟩
    exact ⟨line, hline, (ruleOf_applies (hgood line hline) allow action topic partition).mp
      ⟨rule, hrule, happ⟩⟩
  · rintro ⟨line, hline, hsays⟩
    obtain ⟨rule, hrule, happ⟩ :=
      (ruleOf_applies (hgood line hline) allow action topic partition).mpr hsays
    exact ⟨rule, ⟨line, hline, hrule⟩, happ⟩

theorem check_action_follows_first_block (content : List Char) (doc : PermissionDocument)
    (hparse : parsePermissionFile content = .ok doc) (subject topic partition : List Char)
    (isPublish : Bool) :
    checkAction doc subject topic partition isPublish = true ↔
      Permitted content subject topic partition isPublish := by
  obtain ⟨hgrants, hgood⟩ := parsePermissionFile_grants hparse
  unfold checkAction Permitted firstBlock
  rw [hgrants, List.find?_map]
  cases hfind : (blocks content).find? (·.1 == subject) with
  | none =>
    have hfind' : (blocks content).find? ((·.subjectName == subject) ∘ blockSet) = none := hfind
    rw [hfind']
    simp
  | some blk =>
    have hfind' : (blocks content).find? ((·.subjectName == subject) ∘ blockSet) = some blk :=
      hfind
    have hblk := hgood blk (List.mem_of_find?_eq_some hfind)
    have hdeny := any_ruleApplies_iff hblk false (actionOf isPublish) topic partition
    have hallow := any_ruleApplies_iff hblk true (actionOf isPublish) topic partition
    rw [hfind']
    simp only [Option.map_some, Option.some.injEq, exists_eq_left', blockSet]
    -- the deny pass, then the allow pass, then the default
    by_cases hany : (blk.2.filterMap ruleOf).any
        (ruleApplies (actionOf isPublish) topic partition false) = true
    · rw [if_pos hany]
      simp only [Bool.false_eq_true, false_iff, not_and]
      obtain ⟨line, hline, hsays⟩ := hdeny.mp hany
      exact fun hno => absurd hsays (hno line hline)
    · rw [if_neg hany]
      have hnoDeny : ∀ line ∈ blk.2, ¬ LineSays false (actionOf isPublish) topic partition line :=
        fun line hline hsays => hany (hdeny.mpr ⟨line, hline, hsays⟩)
      by_cases hany' : (blk.2.filterMap ruleOf).any
          (ruleApplies (actionOf isPublish) topic partition true) = true
      · rw [if_pos hany']
        exact iff_of_true rfl ⟨hnoDeny, Or.inl (hallow.mp hany')⟩
      · rw [if_neg hany']
        have hnoAllow : ¬ ∃ line ∈ blk.2, LineSays true (actionOf isPublish) topic partition line :=
          fun hsays => hany' (hallow.mpr hsays)
        simp only [hnoAllow, false_or]
        constructor
        · intro hdef
          exact ⟨hnoDeny, by simpa using hdef⟩
        · rintro ⟨-, hdef⟩
          simp [hdef]

theorem check_action_follows_first_block_default :
    parsePermissionFile "[subject: s]\ndefault: allow\ndeny publish: a/*\n".toList =
        .ok ⟨[⟨"s".toList, [⟨"a/*".toList, [], .Publish, false⟩], false⟩]⟩ ∧
      (checkAction ⟨[⟨"s".toList, [⟨"a/*".toList, [], .Publish, false⟩], false⟩]⟩ "s".toList
          "b".toList [] true = true ↔
        Permitted "[subject: s]\ndefault: allow\ndeny publish: a/*\n".toList "s".toList "b".toList
          [] true) :=
  ⟨by decide, check_action_follows_first_block _ _ (by decide) _ _ _ _⟩

/-- A subject given twice, with a deny line in its second block; and an empty partition list:
both files parse, and publishing `t` is allowed. -/
theorem check_action_skips_later_blocks :
    let twoBlocks := "[subject: s]\nallow publish: t\n[subject: s]\ndeny publish: t\n".toList
    let emptyList := "[subject: s]\nallow publish: t partitions=\n".toList
    (parsePermissionFile twoBlocks).toOption.map
        (checkAction · "s".toList "t".toList [] true) = some true ∧
      (parsePermissionFile emptyList).toOption.map
        (checkAction · "s".toList "t".toList "q".toList true) = some true := by
  decide

end Hdds.Security
