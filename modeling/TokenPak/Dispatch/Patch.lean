import TokenPak.Dispatch.Gatehouse
import TokenPak.Library.FileTree
import TokenPak.Library.Regex

/-! The tool that writes one file of the workspace: the path policy and its globs,
the autonomy matrix, the record of the effect, and the write. -/

namespace TokenPak.Dispatch.Patch
open TokenPak.Library Pattern

inductive ToolName where
  | readContext | writeArtifact | proposePatch | applyPatch | runCommand
  deriving DecidableEq

inductive ToolPermission where
  | allowed | denied | approval | constrained
  deriving DecidableEq

def resolveToolPermission : AutonomyMode → ToolName → ToolPermission
  | _, .readContext | _, .writeArtifact => .allowed
  | .advisory, _ => .denied
  | _, .proposePatch => .allowed
  | .draft, .applyPatch | .draft, .runCommand => .denied
  | .dispatchWithApproval, .applyPatch | .dispatchWithApproval, .runCommand => .approval
  | .autoDispatchLimited, .applyPatch | .autoDispatchLimited, .runCommand => .constrained

inductive PatchError where
  | toolPolicyViolation (tool : ToolName) (mode : AutonomyMode)
  | approvalRequired (tool : ToolName) (mode : AutonomyMode)
  | pathPolicyViolation (target : List Char) (reason : String)
  | encoding | osError
  deriving DecidableEq

def authorizeToolCall (tool : ToolName) (mode : AutonomyMode) (approvalGranted : Bool) :
    Except PatchError ToolPermission :=
  match resolveToolPermission mode tool with
  | .denied => .error (.toolPolicyViolation tool mode)
  | .approval => if approvalGranted then .ok .approval else .error (.approvalRequired tool mode)
  | permission => .ok permission

/-- The denied globs always hold the mandatory ones. -/
structure PathPolicy where
  allowedPaths : List String
  deniedPaths : List String
  allowNewFiles : Bool
  mandatory : ∀ glob ∈ mandatoryDeniedPaths, glob ∈ deniedPaths

/-- Validation adds the mandatory globs that are missing. -/
def ensureMandatoryDenied (denied : List String) : List String :=
  mandatoryDeniedPaths.foldl (fun merged glob => if glob ∈ merged then merged else merged ++ [glob]) denied

theorem mem_ensureMandatoryDenied (denied : List String) :
    ∀ glob ∈ mandatoryDeniedPaths, glob ∈ ensureMandatoryDenied denied := by
  have step (globs merged : List String) : ∀ glob, glob ∈ merged ∨ glob ∈ globs →
      glob ∈ globs.foldl (fun merged glob => if glob ∈ merged then merged else merged ++ [glob]) merged := by
    induction globs generalizing merged with
    | nil => simp
    | cons first globs ih =>
      intro glob present
      apply ih
      by_cases held : first ∈ merged <;> simp only [held, if_true, if_false, List.mem_append, List.mem_singleton] <;> grind
  exact fun glob member => step mandatoryDeniedPaths denied glob (.inr member)

def PathPolicy.validate (allowed denied : List String) (allowNewFiles : Bool) : PathPolicy :=
  ⟨allowed, ensureMandatoryDenied denied, allowNewFiles, mem_ensureMandatoryDenied denied⟩

/-- The names of a path: what stands between slashes, without the empty and the dot. -/
def pathNames (text : List Char) : List (List Char) :=
  (text.splitOn '/').filter fun name => name ≠ [] ∧ name ≠ ['.']

def pathText (names : List (List Char)) : List Char := if names = [] then ['.'] else ['/'].intercalate names

/-- The root of an absolute path is no name, so it is left out. -/
def normalize (relativePath : String) : List Char :=
  let text := pathText (pathNames (relativePath.toList.map fun c => if c = '\\' then '/' else c))
  if ['.', '/'] <+: text then text.drop 2 else text

def globToRegex (dot : Char → Bool) : List Char → List (Pattern.Piece Char)
  | [] => []
  | '*' :: '*' :: '/' :: pattern => .optionally dot '/' :: globToRegex dot pattern
  | '*' :: '*' :: pattern => .many dot :: globToRegex dot pattern
  | '*' :: pattern => .many (· ≠ '/') :: globToRegex dot pattern
  | '?' :: pattern => .one (· ≠ '/') :: globToRegex dot pattern
  | c :: pattern => .one (· = c) :: globToRegex dot pattern

def matchesAny (dot : Char → Bool) (path : List Char) (patterns : List String) : Bool :=
  patterns.any fun pattern => fullmatch (globToRegex dot pattern.toList) path

def dot (c : Char) : Bool := c ≠ '\n'

def checkPathPolicy (relativePath : String) (policy : PathPolicy) : Except PatchError (List Char) :=
  let norm := normalize relativePath
  if matchesAny dot norm policy.deniedPaths then .error (.pathPolicyViolation norm "matches a denied_paths glob")
  else if ¬ matchesAny dot norm policy.allowedPaths then
    .error (.pathPolicyViolation norm "does not match any allowed_paths glob")
  else .ok norm

abbrev Bytes := List UInt8

abbrev Usable (name : List Char) : Prop :=
  name ≠ [] ∧ name ≠ ['.'] ∧ name ≠ ['.', '.'] ∧ '/' ∉ name ∧ '\x00' ∉ name

abbrev Tree := FileTree (List Char) Bytes Usable

structure Workspace where
  tree : Tree
  root : List (List Char)
  directory : tree.node root = some .directory

def moveOf (name : List Char) : Move (List Char) := if name = ['.', '.'] then .up else .into name

def pathMoves (norm : List Char) : List (Move (List Char)) := (pathNames norm).map moveOf

structure PatchRequest where
  relativePath : String
  /-- The content in the encoding of the call, unless it cannot be encoded. -/
  data : Option Bytes
  policy : PathPolicy
  autonomyMode : AutonomyMode
  approvalGranted : Bool
  stationRunId : String
  effectId : String

/-- The write itself: the target, and the file system with the directories above it. -/
structure WriteCall where
  target : List (List Char)
  data : Bytes
  tree : Tree

section Call
variable (hash : Bytes → String) (request : PatchRequest) (workspace : Workspace)

/-- The checks, and the effect as it is recorded before the write. -/
def planPatch : Except PatchError (List Char × Effect) := do
  let _ ← authorizeToolCall .applyPatch request.autonomyMode request.approvalGranted
  let norm ← checkPathPolicy request.relativePath request.policy
  let planned (beforeHash : Option String) : Effect :=
    ⟨request.effectId, request.stationRunId, .file, String.ofList norm, beforeHash, none, .planned,
      false, false⟩
  match workspace.tree.stat workspace.root (pathMoves norm) with
  | some .directory => .error (.pathPolicyViolation norm "target exists and is not a regular file")
  | some (.file bytes) => .ok (norm, planned (some (hash bytes)))
  | none =>
    if ¬ request.policy.allowNewFiles then .error (.pathPolicyViolation norm "new file creation disabled by path policy")
    else .ok (norm, planned none)

def reachWrite (norm : List Char) : Except PatchError WriteCall := do
  let some data := request.data | .error .encoding
  let some tree := workspace.tree.makeDirectories workspace.root (pathMoves norm).dropLast | .error .osError
  return ⟨locate workspace.root (pathMoves norm), data, tree⟩

/-- A directory cannot be replaced by the new file. -/
def atomicWriteBytes (call : WriteCall) : Except PatchError (List (List Char) → Option (Node Bytes)) :=
  if call.tree.node call.target = some .directory ∨ ¬ ∀ name ∈ call.target, Usable name then .error .osError
  else .ok (Function.update call.tree.node call.target (some (.file call.data)))

structure PatchOutcome where
  /-- The effect as the ledger has it after the call, if it was recorded. -/
  effect : Option Effect
  files : Except PatchError (List (List Char) → Option (Node Bytes))

def applyPatch : PatchOutcome :=
  match planPatch hash request workspace with
  | .error error => ⟨none, .error error⟩
  | .ok (norm, planned) =>
    match reachWrite request workspace norm >>= fun call => (call.data, ·) <$> atomicWriteBytes call with
    | .error error => ⟨some { planned with status := .failed, finalized := true }, .error error⟩
    | .ok (data, files) =>
      ⟨some { planned with status := .applied, afterHash := hash data, rollbackAvailable := true, finalized := true }, .ok files⟩

def ReachesWrite (target : List (List Char)) : Prop :=
  ∃ norm planned call, planPatch hash request workspace = .ok (norm, planned) ∧
    reachWrite request workspace norm = .ok call ∧
    call.target = target

end Call
end TokenPak.Dispatch.Patch
