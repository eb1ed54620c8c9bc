import Hdds.Foundations.Text

/-! # Static access control: the rules engine

`security/access/rules.rs` (`RulesEngine`) and the `AccessControlPlugin` of
`security/access/mod.rs`, over governance and permissions documents already parsed from XML.

* Topic names, patterns and partitions are character lists (`Text`).
* `checkTopic` is the deny-then-allow scan that `check_topic_publish` and
  `check_topic_subscribe` share; each keeps its own definition, applied to its pattern list and
  the word its error names. Both ignore their partition argument.
* `wildcardMatch` recognises the pattern shapes the source tests for, in its order.
-/

namespace Hdds.Security
open Text
set_option autoImplicit false

/-- The variants of `SecurityError` the permission checks return. -/
inductive SecurityError
  | PermissionsDenied (msg : String)
  | ConfigError (msg : String)
deriving DecidableEq, Repr

/-- `DomainRule` (the flags the checks do not read are left out). -/
structure DomainRule where
  domains : List ℕ
deriving DecidableEq, Repr

/-- `GovernanceConfig`. -/
structure GovernanceConfig where
  domainRules : List DomainRule
deriving DecidableEq, Repr

/-- `Rule`. -/
structure Rule where
  domains : List ℕ
  publishTopics : List (List Char)
  subscribeTopics : List (List Char)
  partitions : List (List Char)
deriving DecidableEq, Repr

/-- `Grant` (the validity dates are not read by the checks). -/
structure Grant where
  subjectName : List Char
  allowRules : List Rule
  denyRules : List Rule
deriving DecidableEq, Repr

/-- `PermissionsConfig`. -/
structure PermissionsConfig where
  grants : List Grant
deriving DecidableEq, Repr

/-- `RulesEngine`. -/
structure RulesEngine where
  governance : GovernanceConfig
  permissions : PermissionsConfig
deriving DecidableEq, Repr

namespace RulesEngine

/-- `RulesEngine::wildcard_match`. -/
def wildcardMatch (pattern topic : List Char) : Bool :=
  if pattern = ['*'] then true
  else if pattern = topic then true
  else
    match stripSuffix? ['/', '*'] pattern with
    | some pre => pre.isPrefixOf topic
    | none =>
      match stripPrefix? ['*', '/'] pattern with
      | some suf => suf.isSuffixOf topic
      | none =>
        -- `*middle*`: `pattern[1..len - 1]`, both ends being the one-byte `*`
        if pattern.head? = some '*' ∧ pattern.getLast? = some '*' ∧ utf8Len pattern > 2 then
          decide ((pattern.drop 1).dropLast <:+: topic)
        else false

/-- `RulesEngine::check_domain_access`. -/
def checkDomainAccess (e : RulesEngine) (domainId : ℕ) : Except SecurityError Unit :=
  if e.governance.domainRules.any (fun rule => rule.domains.contains domainId) then .ok ()
  else .error (.PermissionsDenied ("Domain " ++ toString domainId ++ " not allowed by governance"))

/-- The patterns `topics` selects from the deny rules, resp. the allow rules, of every grant,
in the order the nested loops of the source visit them. -/
def denyPatterns (e : RulesEngine) (topics : Rule → List (List Char)) : List (List Char) :=
  e.permissions.grants.flatMap fun grant => grant.denyRules.flatMap topics

/-- See `denyPatterns`. -/
def allowPatterns (e : RulesEngine) (topics : Rule → List (List Char)) : List (List Char) :=
  e.permissions.grants.flatMap fun grant => grant.allowRules.flatMap topics

/-- The scan of `check_topic_publish` / `check_topic_subscribe`: the first deny pattern matching
the topic refuses it, otherwise an allow pattern must match. -/
def checkTopic (topics : Rule → List (List Char)) (action : String) (e : RulesEngine)
    (topic : List Char) (_partition : Option (List Char)) : Except SecurityError Unit :=
  match (e.denyPatterns topics).find? (wildcardMatch · topic) with
  | some pattern =>
    .error (.PermissionsDenied ("Topic \x27" ++ String.ofList topic ++ "\x27 denied by rule \x27" ++
      String.ofList pattern ++ "\x27"))
  | none =>
    if (e.allowPatterns topics).any (wildcardMatch · topic) then .ok ()
    else .error (.PermissionsDenied ("Topic \x27" ++ String.ofList topic ++ "\x27 not allowed for " ++
      action ++ " (no matching allow_rule)"))

/-- `RulesEngine::check_topic_publish`. -/
def checkTopicPublish (e : RulesEngine) (topic : List Char) (partition : Option (List Char)) :
    Except SecurityError Unit :=
  checkTopic Rule.publishTopics "publish" e topic partition

/-- `RulesEngine::check_topic_subscribe`. -/
def checkTopicSubscribe (e : RulesEngine) (topic : List Char) (partition : Option (List Char)) :
    Except SecurityError Unit :=
  checkTopic Rule.subscribeTopics "subscribe" e topic partition

/-- The decision of the scan: no deny pattern matches and some allow pattern does. -/
theorem checkTopic_eq_ok (topics : Rule → List (List Char)) (action : String) (e : RulesEngine)
    (topic : List Char) (partition : Option (List Char)) :
    checkTopic topics action e topic partition = .ok () ↔
      (∀ pattern ∈ e.denyPatterns topics, wildcardMatch pattern topic = false) ∧
        ∃ pattern ∈ e.allowPatterns topics, wildcardMatch pattern topic = true := by
  unfold checkTopic
  cases hdeny : (e.denyPatterns topics).find? (wildcardMatch · topic) with
  | some pattern =>
    have hmatch := List.find?_some hdeny
    have hmem := List.mem_of_find?_eq_some hdeny
    simp only [reduceCtorEq, false_iff, not_and]
    intro hall
    simp [hall pattern hmem] at hmatch
  | none =>
    have hnone := List.find?_eq_none.mp hdeny
    simp only [List.any_eq_true]
    split
    · rename_i hany
      exact ⟨fun _ => ⟨fun p hp => by simpa using hnone p hp, hany⟩, fun _ => rfl⟩
    · rename_i hany
      simp only [reduceCtorEq, false_iff, not_and]
      exact fun _ => hany

end RulesEngine

/-! ## The plugin -/

/-- `AccessControlPlugin`. -/
structure AccessControlPlugin where
  rules : RulesEngine

namespace AccessControlPlugin

/-- `check_create_participant`. -/
def checkCreateParticipant (p : AccessControlPlugin) (domainId : ℕ) : Except SecurityError Unit :=
  p.rules.checkDomainAccess domainId

/-- `check_create_writer`. -/
def checkCreateWriter (p : AccessControlPlugin) (topic : List Char)
    (partition : Option (List Char)) : Except SecurityError Unit :=
  p.rules.checkTopicPublish topic partition

/-- `check_create_reader`. -/
def checkCreateReader (p : AccessControlPlugin) (topic : List Char)
    (partition : Option (List Char)) : Except SecurityError Unit :=
  p.rules.checkTopicSubscribe topic partition

/-- `check_remote_writer`. -/
def checkRemoteWriter (p : AccessControlPlugin) (topic : List Char) : Except SecurityError Unit :=
  p.rules.checkTopicPublish topic none

/-- `check_remote_reader`. -/
def checkRemoteReader (p : AccessControlPlugin) (topic : List Char) : Except SecurityError Unit :=
  p.rules.checkTopicSubscribe topic none

theorem plugin_decides_by_patterns_alone (p : AccessControlPlugin) (topic : List Char)
    (partition : Option (List Char)) :
    (p.checkCreateWriter topic partition = .ok () ↔
      (∀ pattern ∈ p.rules.denyPatterns Rule.publishTopics,
        RulesEngine.wildcardMatch pattern topic = false) ∧
      ∃ pattern ∈ p.rules.allowPatterns Rule.publishTopics,
        RulesEngine.wildcardMatch pattern topic = true) ∧
    (p.checkCreateReader topic partition = .ok () ↔
      (∀ pattern ∈ p.rules.denyPatterns Rule.subscribeTopics,
        RulesEngine.wildcardMatch pattern topic = false) ∧
      ∃ pattern ∈ p.rules.allowPatterns Rule.subscribeTopics,
        RulesEngine.wildcardMatch pattern topic = true) :=
  ⟨RulesEngine.checkTopic_eq_ok Rule.publishTopics "publish" p.rules topic partition,
    RulesEngine.checkTopic_eq_ok Rule.subscribeTopics "subscribe" p.rules topic partition⟩

/-- An allow rule scoped to partition `A` lets a writer be created in partition `B`, and the
pattern `sensor/*` grants `sensorX`. -/
example :
    let rule : Rule := ⟨[0], ["t".toList], [], ["A".toList]⟩
    let plugin : AccessControlPlugin := ⟨⟨⟨[⟨[0]⟩]⟩, ⟨[⟨"p".toList, [rule], []⟩]⟩⟩⟩
    plugin.checkCreateWriter "t".toList (some "B".toList) = .ok () ∧
      RulesEngine.wildcardMatch "sensor/*".toList "sensorX".toList = true := by
  decide

/-! ## `?` is not a wildcard -/

/-- The glob language the doc comment of `wildcard_match` describes: `*` any string, possibly
empty; `?` any one character; every other character itself. -/
def globMatch : List Char → List Char → Bool
  | [], topic => topic.isEmpty
  | c :: rest, topic =>
    if c = '*' then (List.range (topic.length + 1)).any fun i => globMatch rest (topic.drop i)
    else
      match topic with
      | [] => false
      | d :: topic => (c == '?' || c == d) && globMatch rest topic

/-- The pattern with every `?` replaced by `fill`. -/
def fillQuestionMarks (fill : Char) (pattern : List Char) : List Char :=
  pattern.map fun c => if c = '?' then fill else c

/-- Without a `*`, a pattern matches only itself: none of the shapes `wildcard_match` tests
for applies. -/
theorem wildcardMatch_of_star_not_mem {pattern : List Char} (hstar : '*' ∉ pattern)
    (topic : List Char) : RulesEngine.wildcardMatch pattern topic = decide (pattern = topic) := by
  have hsuffix : stripSuffix? ['/', '*'] pattern = none := by
    rw [stripSuffix?_eq_none]
    rintro ⟨pre, rfl⟩
    exact hstar (List.mem_append_right _ (by simp))
  have hprefix : stripPrefix? ['*', '/'] pattern = none := by
    rw [stripPrefix?_eq_none]
    rintro ⟨suf, rfl⟩
    exact hstar (List.mem_append_left _ (by simp))
  have hhead : pattern.head? ≠ some '*' := fun h => hstar (List.mem_of_mem_head? h)
  unfold RulesEngine.wildcardMatch
  rw [if_neg (fun h => hstar (by simp [h]))]
  by_cases heq : pattern = topic
  · rw [if_pos heq, decide_eq_true heq]
  · rw [if_neg heq, hsuffix, hprefix, decide_eq_false heq]
    dsimp only
    rw [if_neg fun h => hhead h.1]

/-- Filling the `?` of a pattern without `*` gives a topic of its glob language. -/
theorem globMatch_fillQuestionMarks (fill : Char) {pattern : List Char}
    (hstar : '*' ∉ pattern) : globMatch pattern (fillQuestionMarks fill pattern) = true := by
  induction pattern with
  | nil => rfl
  | cons c rest ih =>
    have hc : c ≠ '*' := fun h => hstar (h ▸ List.mem_cons_self)
    have hrest := ih fun h => hstar (List.mem_cons_of_mem c h)
    simp only [fillQuestionMarks, List.map_cons] at hrest ⊢
    rw [globMatch, if_neg hc]
    -- a `?` reads the filled character, any other character itself
    by_cases hq : c = '?' <;> simp [hq, hrest]

theorem fillQuestionMarks_ne {fill : Char} (hfill : fill ≠ '?') {pattern : List Char}
    (hq : '?' ∈ pattern) : fillQuestionMarks fill pattern ≠ pattern := by
  intro h
  have hmem : '?' ∈ fillQuestionMarks fill pattern := by
    rw [h]
    exact hq
  obtain ⟨c, -, hc⟩ := List.mem_map.mp hmem
  split_ifs at hc with hcq
  · exact hfill hc
  · exact hcq hc

/-- A pattern with a `?` and no `*` matches only itself, so an allow rule for it refuses a
writer on every other topic of its glob language, such as the pattern with its `?` filled in,
whatever the partition. -/
theorem question_mark_pattern_refuses_its_glob_topics (pattern : List Char)
    (hstar : '*' ∉ pattern) (hq : '?' ∈ pattern) (fill : Char) (hfill : fill ≠ '?')
    (partition : Option (List Char)) :
    globMatch pattern (fillQuestionMarks fill pattern) = true ∧
      (AccessControlPlugin.mk ⟨⟨[⟨[0]⟩]⟩, ⟨[⟨[], [⟨[0], [pattern], [], []⟩], []⟩]⟩⟩).checkCreateWriter
        (fillQuestionMarks fill pattern) partition ≠ .ok () := by
  refine ⟨globMatch_fillQuestionMarks fill hstar, fun h => ?_⟩
  obtain ⟨-, pat, hmem, hmatch⟩ := (plugin_decides_by_patterns_alone _ _ partition).1.mp h
  -- the one allow pattern is `pattern`, which matches only itself
  have hpat : pat = pattern := by
    simpa [RulesEngine.allowPatterns] using hmem
  rw [hpat, wildcardMatch_of_star_not_mem hstar, decide_eq_true_iff] at hmatch
  exact fillQuestionMarks_ne hfill hq hmatch.symm

theorem question_mark_pattern_refuses_its_glob_topics_abc :
    ('*' ∉ "a?c".toList ∧ '?' ∈ "a?c".toList ∧ 'b' ≠ '?') ∧
      fillQuestionMarks 'b' "a?c".toList = "abc".toList ∧
      (globMatch "a?c".toList (fillQuestionMarks 'b' "a?c".toList) = true ∧
        (AccessControlPlugin.mk ⟨⟨[⟨[0]⟩]⟩, ⟨[⟨[], [⟨[0], ["a?c".toList], [], []⟩], []⟩]⟩⟩).checkCreateWriter
          (fillQuestionMarks 'b' "a?c".toList) none ≠ .ok ()) :=
  ⟨by decide, by decide,
    question_mark_pattern_refuses_its_glob_topics "a?c".toList (by decide) (by decide) 'b'
      (by decide) none⟩

end AccessControlPlugin

end Hdds.Security
