import TokenPak.Creds.Router

/-! Selection never guesses, except by a rule: the dictionary it looks an id up in holds the last of
the credentials that share it. What the other layers look at is a list of candidates, and they
choose only when there is one alone. -/

namespace TokenPak.Creds
open Library
variable (texts : Texts) (ctx : RouteContext) (creds : List Credential) (rules : List Rule) (now : Int)

inductive Outcome where
  | chosen (cred : Credential)
  | noRoute
  | ambiguousRoute
  deriving DecidableEq

def outcome : Except RouterError RouteDecision → Outcome
  | .ok decision => .chosen decision.credential
  | .error (.noRoute _) => .noRoute
  | .error (.ambiguousRoute _) => .ambiguousRoute

/-- The candidate, when it is alone. -/
def only : List Credential → Outcome
  | [] => .noRoute
  | [cred] => .chosen cred
  | _ => .ambiguousRoute

/-- The credential is alone: with its id in the list, or by the platform's rule among those that
cover the host. -/
def Alone (decision : RouteDecision) : Prop :=
  match decision.layer with
  | .explicit | .rule => creds.filter (·.id = decision.credential.id) = [decision.credential]
  | .platformDefault =>
    preferHealthy now (creds.filter (Credential.covers ctx.destinationHost)) = [decision.credential]

/-- The outcome does not depend on the order of the credentials, and a credential that is returned
is alone. -/
structure NeverGuesses : Prop where
  order : ∀ others, creds.Perm others →
    outcome (select texts ctx others rules now) = outcome (select texts ctx creds rules now)
  alone : ∀ decision, select texts ctx creds rules now = .ok decision → Alone ctx creds now decision

/-- Without an explicit tag, the first rule that matches names an id that several of the credentials have. -/
def RuleShared : Prop :=
  ctx.explicitTag.filter (· ≠ "") = none ∧
    ∃ rule, rules.find? (ruleMatches ctx) = some rule ∧ 2 ≤ (creds.filter (·.id = rule.credId)).length

variable {texts ctx creds rules now} {others : List Credential} {tag : String} {rule : Rule}
  {decision : RouteDecision}

theorem only_perm (perm : creds.Perm others) : only others = only creds := by
  have size := perm.length_eq
  rcases creds with _ | ⟨cred, _ | ⟨second, rest⟩⟩ <;> rcases others with _ | ⟨other, _ | ⟨third, more⟩⟩ <;>
    simp only [List.length_nil, List.length_cons] at size <;> first | omega | rfl | skip
  rw [List.singleton_perm_singleton.mp perm]

theorem preferHealthy_perm (perm : creds.Perm others) :
    (preferHealthy now creds).Perm (preferHealthy now others) := by
  have healthy := perm.filter fun cred => ! cred.isStale now 0
  simp only [preferHealthy, healthy.isEmpty_eq]
  split
  · exact perm
  · exact healthy

theorem id_eq {cred : Credential} (member : cred ∈ creds.filter (·.id = tag)) : cred.id = tag := by
  simpa using (List.mem_filter.mp member).2

section ByTag

theorem outcome_byTag : outcome (byTag texts creds tag) = only (creds.filter (·.id = tag)) := by
  unfold byTag
  split
  next none => rw [none]; rfl
  next cred one => rw [one]; rfl
  next matched several unique =>
    unfold only
    split
    · contradiction
    next cred one => exact absurd one (unique cred)
    · rfl

theorem byTag_alone (ok : byTag texts creds tag = .ok decision) : Alone ctx creds now decision := by
  unfold byTag at ok
  split at ok
  · cases ok
  next cred one =>
    cases ok
    have named : cred.id = tag :=  id_eq (one ▸ List.mem_singleton_self cred)
    subst named
    exact one
  · cases ok

end ByTag

section ByRule

theorem get_byId (id : String) : (byId creds).get id = (creds.filter (·.id = id)).getLast? := by
  have last : ∀ (found : List Credential) (start : Option Credential),
      found.foldl (fun _ cred => some cred) start = found.getLast?.or start := by
    intro found
    induction found with
    | nil => intro start; rfl
    | cons cred rest ih =>
      intro start
      rw [List.foldl_cons, ih, List.getLast?_cons]
      cases rest.getLast? <;> rfl
  rw [byId, Dict.get_foldl_group Credential.id fun _ cred => cred, last]
  simp [Dict.empty, Dict.get]

theorem byRule_ok (ok : byRule texts creds rule = .ok decision) :
    decision.layer = .rule ∧ (creds.filter (·.id = rule.credId)).getLast? = some decision.credential := by
  rw [← get_byId]
  unfold byRule at ok
  split at ok
  · cases ok
  next cred found => cases ok; exact ⟨rfl, found⟩

theorem outcome_byRule (few : (creds.filter (·.id = rule.credId)).length < 2) :
    outcome (byRule texts creds rule) = only (creds.filter (·.id = rule.credId)) := by
  unfold byRule
  rw [get_byId]
  generalize creds.filter (·.id = rule.credId) = found at few
  rcases found with _ | ⟨cred, _ | ⟨second, rest⟩⟩
  · rfl
  · rfl
  · simp only [List.length_cons] at few
    omega

theorem byRule_alone (few : (creds.filter (·.id = rule.credId)).length < 2)
    (ok : byRule texts creds rule = .ok decision) :
    Alone ctx creds now decision := by
  obtain ⟨layer, found⟩ := byRule_ok ok
  have one : creds.filter (·.id = rule.credId) = [decision.credential] := by
    generalize creds.filter (·.id = rule.credId) = named at few found
    rcases named with _ | ⟨cred, _ | ⟨second, rest⟩⟩
    · cases found
    · cases found; rfl
    · simp only [List.length_cons] at few
      omega
  have same : decision.credential.id = rule.credId :=
    id_eq (one ▸ List.mem_singleton_self decision.credential)
  simp only [Alone, layer]
  rw [same]
  exact one

/-- Several credentials of the rule's id: one of them is returned all the same. -/
theorem not_alone_of_shared (texts : Texts) (ctx : RouteContext) (now : Int)
    (several : 2 ≤ (creds.filter (·.id = rule.credId)).length) :
    ∃ decision, byRule texts creds rule = .ok decision ∧ ¬ Alone ctx creds now decision := by
  cases found : (byId creds).get rule.credId with
  | none =>
    rw [get_byId, List.getLast?_eq_none_iff] at found
    rw [found] at several
    simp at several
  | some cred =>
    have ok : ∃ decision, byRule texts creds rule = .ok decision := by
      simp only [byRule, found]
      exact ⟨_, rfl⟩
    obtain ⟨decision, ok⟩ := ok
    refine ⟨decision, ok, ?_⟩
    intro alone
    obtain ⟨layer, last⟩ := byRule_ok ok
    have same : decision.credential.id = rule.credId :=  id_eq (List.mem_of_getLast? last)
    simp only [Alone, layer] at alone
    rw [← same, alone] at several
    simp at several

end ByRule

section ByPlatform

theorem outcome_byPlatform :
    outcome (byPlatform texts ctx creds now) =
      only (preferHealthy now (creds.filter (Credential.covers ctx.destinationHost))) := by
  simp only [byPlatform]
  split
  next none => rw [none]; rfl
  next cred one => rw [one]; rfl
  next candidates several unique =>
    unfold only
    split
    · contradiction
    next cred one => exact absurd one (unique cred)
    · rfl

theorem byPlatform_alone (ok : byPlatform texts ctx creds now = .ok decision) :
    Alone ctx creds now decision := by
  simp only [byPlatform] at ok
  split at ok
  · cases ok
  next cred one => cases ok; exact one
  · cases ok

end ByPlatform

/-- Selection never guesses unless a rule names an id that several credentials share. -/
theorem never_guesses_iff (texts : Texts) (ctx : RouteContext) (creds : List Credential)
    (rules : List Rule) (now : Int) :
    NeverGuesses texts ctx creds rules now ↔ ¬ RuleShared ctx creds rules := by
  cases tagged : ctx.explicitTag.filter (· ≠ "") with
  | some tag =>
    have chosen : ∀ others, select texts ctx others rules now = byTag texts others tag := fun others => by
      simp only [select, tagged]
    constructor
    · rintro - ⟨untagged, -⟩
      cases tagged.symm.trans untagged
    · intro _
      refine ⟨?_, ?_⟩
      · intro others perm
        rw [chosen, chosen, outcome_byTag, outcome_byTag]
        exact only_perm (perm.filter _)
      · intro decision ok
        exact byTag_alone (chosen creds ▸ ok)
  | none =>
    cases matched : rules.find? (ruleMatches ctx) with
    | none =>
      have chosen : ∀ others, select texts ctx others rules now = byPlatform texts ctx others now :=
        fun others => by
        simp only [select, tagged, matched]
      constructor
      · rintro - ⟨-, rule, found, -⟩
        cases matched.symm.trans found
      · intro _
        refine ⟨?_, ?_⟩
        · intro others perm
          rw [chosen, chosen, outcome_byPlatform, outcome_byPlatform]
          exact only_perm (preferHealthy_perm (perm.filter _))
        · intro decision ok
          exact byPlatform_alone (chosen creds ▸ ok)
    | some rule =>
      have chosen : ∀ others, select texts ctx others rules now = byRule texts others rule := fun others => by
        simp only [select, tagged, matched]
      constructor
      · rintro never ⟨-, shared, found, several⟩
        cases matched.symm.trans found
        obtain ⟨decision, ok, guessed⟩ := not_alone_of_shared texts ctx now several
        exact guessed (never.alone decision ((chosen creds).trans ok))
      · intro unshared
        have few : (creds.filter (·.id = rule.credId)).length < 2 := by
          by_contra several
          exact unshared ⟨tagged, rule, matched, by omega⟩
        refine ⟨?_, ?_⟩
        · intro others perm
          have same := perm.filter fun cred => decide (cred.id = rule.credId)
          rw [chosen, chosen, outcome_byRule few, outcome_byRule (same.length_eq ▸ few)]
          exact only_perm same
        · intro decision ok
          exact byRule_alone few (chosen creds ▸ ok)

section Duplicates

def workAccount (provider : String) : Credential where
  id := "work"
  platform := "anthropic"
  kind := kindOauth
  source := provider
  provider := provider
  refreshOwner := "external"
  expiresAt := none
  accountHint := none
  scopeHosts := ["api.anthropic.com"]
  secretRef := none

/-- A rule for every request names the id: the order of the credentials decides whose secret is used. -/
theorem rule_guesses : ∃ (texts : Texts) (ctx : RouteContext) (creds : List Credential)
    (rules : List Rule) (now : Int),
    ¬ NeverGuesses texts ctx creds rules now ∧
      outcome (select texts ctx creds rules now) ≠ outcome (select texts ctx creds.reverse rules now) := by
  refine ⟨⟨id, fun _ => ""⟩, ⟨"api.anthropic.com", none, none⟩,
    [workAccount "claude_cli", workAccount "openclaw"], [⟨"work", [], []⟩], 0,
    ?_, by decide⟩
  intro never
  have same := never.order _ (List.reverse_perm _).symm
  exact absurd same (by decide)

end Duplicates
end TokenPak.Creds
