import TokenPak.Library.JsonSound
import TokenPak.Proxy.ToolSchemaRegistry

/-! Tools in order. The tools of a result are those of the request, and two requests with the same
tools get the same text when the tools of each name come in the same order in both; a tool of the
nested kind counts as one without a name. -/

namespace TokenPak.Proxy.ToolSchemaRegistry
open Library Machine StableSort

section Names
variable {N : Type} {tool : Json N} {tools normalized : List (Json N)} {mixed : MixedSort N}

/-- A tool with a name of its own, or with the name in its function. -/
inductive Supported : Json N → Prop
  | named (entries : List (String × Json N)) (name : String) (found : entries.lookup "name" = some (.string name)) :
    Supported (.object entries)
  | nested (entries function : List (String × Json N)) (name : String) (none : entries.lookup "name" = none)
    (found : entries.lookup "function" = some (.object function))
      (called : function.lookup "name" = some (.string name)) :
    Supported (.object entries)

/-- The tools that are placed are the given ones, in some order and with their keys in some order. -/
def Placed (tools placed : List (Json N)) :
    Prop := ∃ ordered, tools.Perm ordered ∧ Json.AlikeItems ordered placed

theorem toolName_sortKeys (proper : tool.Proper) : toolName tool.sortKeys = toolName tool := by
  cases tool with
  | object entries =>
    simp only [toolName, Json.sortKeys, sortKey, Json.lookup_sortKeys proper.1]
    cases entries.lookup "name" with
    | none => rfl
    | some name => cases name <;> rfl
  | _ => rfl

theorem sortKey_supported (supported : Supported tool) (proper : tool.Proper) :
    sortKey tool.sortKeys = some (.string (toolName tool)) := by
  cases supported with
  | named entries name found => simp [sortKey, Json.sortKeys, Json.lookup_sortKeys proper.1, toolName, found]
  | nested entries function name none found called =>
    simp [sortKey, Json.sortKeys, Json.lookup_sortKeys proper.1, toolName, none]

theorem normalizeTools_supported (supported : ∀ tool ∈ tools, Supported tool)
    (proper : ∀ tool ∈ tools, tool.Proper) :
    normalizeTools mixed tools = some (sortBy toolName (tools.map normalizeSchema)) := by
  have keys : (tools.map normalizeSchema).mapM sortKey = some (tools.map fun tool =>
      .string (toolName tool)) := by
    rw [List.mapM_map]
    induction tools with
    | nil => rfl
    | cons tool tools ih =>
      obtain ⟨first, others⟩ := List.forall_mem_cons.mp supported
      obtain ⟨clean, rest⟩ := List.forall_mem_cons.mp proper
      rw [List.mapM_cons, ih others rest, Function.comp_apply, normalizeSchema, sortKey_supported first clean]
      rfl
  rw [normalizeTools]
  simp [keys, isString]

theorem normalizeTools_perm (found : normalizeTools mixed tools = some normalized) :
    normalized.Perm (tools.map normalizeSchema) := by
  unfold normalizeTools at found
  cases keys : (tools.map normalizeSchema).mapM sortKey with
  | none => simp [keys] at found
  | some keys' =>
    simp only [keys] at found
    split at found
    · cases found
      exact sortBy_perm
    · exact mixed.perm _ _ found

theorem placed_of_perm {placed : List (Json N)} (proper : ∀ tool ∈ tools, tool.Proper)
    (perm : placed.Perm (tools.map normalizeSchema)) :
    Placed tools placed := by
  obtain ⟨ordered, ordering, rfl⟩ := exists_perm_map perm
  have clean : Json.ProperItems ordered :=
    Json.properItems_iff.mpr fun tool member => proper tool (ordering.mem_iff.mpr member)
  have sorted := Json.sortItems_sortItems ordered clean
  refine ⟨ordered, ordering, (Json.alikeItems_iff ordered clean).mpr ?_⟩
  rw [Json.sortItems_eq ordered] at sorted ⊢
  exact sorted.symm

/-- The tools are values of a text, with their keys in order. -/
def Normal (tools : List (Json N)) : Prop := ∀ tool ∈ tools, tool.Proper ∧ tool.sortKeys = tool

theorem normal_of_perm (proper : ∀ tool ∈ tools, tool.Proper)
    (perm : normalized.Perm (tools.map normalizeSchema)) : Normal normalized := by
  intro image member
  obtain ⟨tool, there, rfl⟩ := List.mem_map.mp (perm.mem_iff.mp member)
  exact ⟨Json.proper_sortKeys tool (proper tool there), Json.sortKeys_sortKeys tool (proper tool there)⟩

theorem Normal.proper (normal : Normal tools) : (Json.array tools).Proper :=
  Json.properItems_iff.mpr fun tool member => (normal tool member).1

end Names

section Freezing
variable {N Hash : Type} [Numerals N] [DecidableEq Hash] {mixed : MixedSort N} {sha256 : List Char → Hash}
variable {registry : Registry N Hash} {tools others normalized : List (Json N)}

theorem Normal.serialize_eq (normal : Normal tools) : serialize tools = (Json.array tools).dumps compact := by
  have same : tools.map Json.sortKeys = tools :=
    (List.map_congr_left (g := id) fun tool member => (normal tool member).2).trans (List.map_id tools)
  rw [serialize, Json.sortKeys, Json.sortItems_eq, same]

theorem dumps_array_inj {first second : Json N} (proper : first.Proper) (also : second.Proper)
    (same : first.dumps compact = second.dumps compact) : first = second := by
  have read : Json.loads (first.dumps compact) = some first := Json.loads_dumps proper
  rw [same, Json.loads_dumps also] at read
  exact (Option.some.inj read).symm

theorem serialize_inj (normal : Normal tools) (also : Normal others)
    (same : serialize tools = serialize others) : tools = others := by
  rw [normal.serialize_eq, also.serialize_eq] at same
  exact Json.array.inj (dumps_array_inj normal.proper also.proper same)

/-- What is frozen are normal tools with their text and its hash. -/
def Registry.Held (sha256 : List Char → Hash) (registry : Registry N Hash) : Prop :=
  ∀ frozen ∈ registry.frozen, Normal frozen.tools ∧ frozen.text = serialize frozen.tools ∧
    frozen.hash = sha256 frozen.text

omit [DecidableEq Hash] in
theorem held_new : (Registry.new : Registry N Hash).Held sha256 := by simp [Registry.Held, Registry.new]

/-- With other hashes for other texts the frozen tools are those of the request, and a change is
told when they were others. -/
theorem freeze_spec (collision_free : Function.Injective sha256) (held : registry.Held sha256)
    (normal : Normal normalized) :
    (freeze sha256 registry normalized).1.tools = normalized ∧
      Registry.Held sha256 ⟨some (freeze sha256 registry normalized).1⟩ ∧
      ((freeze sha256 registry normalized).2 = false ↔
          ∀ frozen ∈ registry.frozen, frozen.tools = normalized) := by
  unfold freeze
  cases before : registry.frozen with
  | none => simp [Registry.Held, normal]
  | some frozen =>
    obtain ⟨own, text, hash⟩ := held frozen before
    by_cases same : sha256 (serialize normalized) = frozen.hash
    · have equal : frozen.tools = normalized := by
        rw [hash, text] at same
        exact (serialize_inj normal own (collision_free same)).symm
      simp only [if_neg (not_not.mpr same)]
      refine ⟨equal, ?_, by simp [equal]⟩
      rintro _ ⟨rfl⟩
      exact held frozen before
    · have differs : frozen.tools ≠ normalized := by
        rintro rfl
        exact same (by rw [hash, text])
      simp [same, differs, Registry.Held, normal]

def inOrder (tools : List (Json N)) : List (Json N) := sortBy toolName (tools.map normalizeSchema)

/-- A body that is an object with a list of tools of the supported kinds. -/
structure Asks (body : Body) (data : List (String × Json N)) (tools : List (Json N)) : Prop where
  parsed : Json.loads body.text = some (.object data)
  held : data.lookup "tools" = some (.array tools)
  full : tools ≠ []
  supported : ∀ tool ∈ tools, Supported tool

def placedTools (N : Type) [Numerals N] (text : List Char) : Option (List (Json N)) :=
  match (Json.loads text : Option (Json N)) with
  | some (.object data) =>
    match data.lookup "tools" with
    | some (.array tools) => some tools
    | _ => none
  | _ => none

variable {body other : Body} {data rest : List (String × Json N)}

theorem Asks.proper (asks : Asks body data tools) : ∀ tool ∈ tools, tool.Proper := by
  have whole := (Json.loads_sound asks.parsed).1
  exact Json.properItems_iff.mp (Json.proper_lookup whole asks.held)

theorem Asks.normal (asks : Asks body data tools) : Normal (inOrder tools) :=
  normal_of_perm asks.proper sortBy_perm

theorem Asks.placed (asks : Asks body data tools) : Placed tools (inOrder tools) :=
  placed_of_perm asks.proper sortBy_perm

omit [Numerals N] in
theorem setTools_eq (data : List (String × Json N)) (tools : List (Json N)) :
    setTools data tools = data.map fun entry => (entry.1, if entry.1 = "tools" then .array tools
      else entry.2) := by
  apply List.map_congr_left
  intro entry _
  split <;> rfl

theorem Asks.placedTools_eq (asks : Asks body data tools) (normal : Normal normalized) :
    placedTools N ((Json.object (setTools data normalized)).dumps compact) = some normalized := by
  have whole := (Json.loads_sound asks.parsed).1
  have proper : (Json.object (setTools data normalized)).Proper := by
    rw [setTools_eq]
    refine ⟨?_, ?_⟩
    · rw [List.map_map]
      exact whole.1
    · rw [Json.properEntries_iff]
      intro entry member
      obtain ⟨own, there, rfl⟩ := List.mem_map.mp member
      by_cases here : own.1 = "tools"
      · simpa [here] using normal.proper
      · simpa [here] using Json.properEntries_iff.mp whole.2 own there
  have found : (setTools data normalized).lookup "tools" = some (.array normalized) := by
    rw [lookup_some_iff proper.1, setTools_eq]
    exact List.mem_map.mpr ⟨_, (lookup_some_iff whole.1).mp asks.held, by simp⟩
  rw [placedTools, Json.loads_dumps proper]
  simp only [found]

theorem normalizeRequest_spec (collision_free : Function.Injective sha256)
    (held : registry.Held sha256) (asks : Asks body data tools) :
    ∃ changed frozen, normalizeRequest mixed sha256 registry body =
        some (((Json.object (setTools data (inOrder tools))).dumps compact, changed), ⟨some frozen⟩) ∧
      Registry.Held sha256 ⟨some frozen⟩ ∧ frozen.tools = inOrder tools ∧
      (changed = false ↔ ∀ frozen ∈ registry.frozen, frozen.tools = inOrder tools) := by
  obtain ⟨placed, kept, told⟩ := freeze_spec collision_free held asks.normal
  refine ⟨(freeze sha256 registry (inOrder tools)).2, (freeze sha256 registry (inOrder tools)).1,
    ?_, kept, placed, told⟩
  have sorted := @normalizeTools_supported _ _ mixed asks.supported asks.proper
  obtain ⟨tool, others, rfl⟩ := List.exists_cons_of_ne_nil asks.full
  simp only [normalizeRequest, asks.parsed, asks.held, sorted, Option.map_some]
  rw [show sortBy toolName ((tool :: others).map normalizeSchema) = inOrder (tool :: others) from rfl, placed]

theorem act_held (collision_free : Function.Injective sha256) (held : registry.Held sha256)
    (body : Body) : (act mixed sha256 registry body).Held sha256 := by
  unfold act normalizeRequest
  cases parsed : (Json.loads body.text : Option (Json N)) with
  | none => exact held
  | some value =>
    cases value with
    | object data =>
      cases there : data.lookup "tools" with
      | none => simpa only [there] using held
      | some value =>
        cases value with
        | array tools =>
          cases tools with
          | nil => simpa only [there] using held
          | cons tool tools =>
            have proper := Json.properItems_iff.mp (Json.proper_lookup (Json.loads_sound parsed).1 there)
            simp only [there]
            cases found : normalizeTools mixed (tool :: tools) with
            | none => exact held
            | some normalized =>
              have normal := normal_of_perm proper (normalizeTools_perm found)
              exact (freeze_spec collision_free held normal).2.1
        | _ => simpa only [there] using held
    | _ => exact held

/-- Two requests, one behind the other: both get their own tools in some order, with one text, and
the second one tells no change. -/
def OrderIndependent (mixed : MixedSort N) (sha256 : List Char → Hash) (registry : Registry N Hash)
    (body other : Body) (tools others : List (Json N)) : Prop :=
  ∃ first second changed after last placed replaced,
    normalizeRequest mixed sha256 registry body = some ((first, changed), after) ∧
      normalizeRequest mixed sha256 after other = some ((second, false), last) ∧
      placedTools N first = some placed ∧ placedTools N second = some replaced ∧
      Placed tools placed ∧ Placed others replaced ∧
        (Json.array placed).dumps compact = (Json.array replaced).dumps compact

theorem orderIndependent_of_held (collision_free : Function.Injective sha256)
    (held : registry.Held sha256) (asks : Asks body data tools)
    (also : Asks other rest others) :
    OrderIndependent mixed sha256 registry body other tools others ↔ inOrder tools = inOrder others := by
  obtain ⟨changed, frozen, out, kept, same, _⟩ :=
    @normalizeRequest_spec _ _ _ _ mixed _ _ _ _ _ collision_free held asks
  obtain ⟨changed', frozen', out', _, _, told⟩ :=
    @normalizeRequest_spec _ _ _ _ mixed _ _ _ _ _ collision_free kept also
  have calm : changed' = false ↔ inOrder tools = inOrder others := by
    rw [told, ← same]
    simp
  constructor
  · rintro ⟨first, second, again, middle, final, placed, replaced, outFirst, outSecond, _⟩
    rw [out] at outFirst
    cases outFirst
    rw [out'] at outSecond
    cases outSecond
    exact calm.mp rfl
  · intro equal
    obtain rfl := calm.mpr equal
    exact ⟨_, _, _, _, _, _, _, out, out', asks.placedTools_eq asks.normal,
      also.placedTools_eq also.normal, asks.placed, also.placed,
      by rw [equal]⟩

/-- The tools of each name, in their order, decide. -/
theorem inOrder_eq_iff (asks : Asks body data tools) (also : Asks other rest others) :
    inOrder tools = inOrder others ↔
      ∀ name, Json.AlikeItems (tools.filter (toolName · = name)) (others.filter (toolName · = name)) := by
  have images (tools : List (Json N)) (proper : ∀ tool ∈ tools, tool.Proper) (name : String) :
      (tools.map normalizeSchema).filter (toolName · = name) =
          (tools.filter (toolName · = name)).map Json.sortKeys := by
    rw [List.filter_map]
    congr 1
    apply List.filter_congr
    intro tool member
    rw [Function.comp_apply, normalizeSchema, toolName_sortKeys (proper tool member)]
  rw [inOrder, inOrder, sortBy_eq_iff]
  apply forall_congr'
  intro name
  have proper : Json.ProperItems (tools.filter (toolName · = name)) :=
    Json.properItems_iff.mpr fun tool member => asks.proper tool (List.mem_of_mem_filter member)
  rw [images tools asks.proper, images others also.proper, Json.alikeItems_iff _ proper,
    Json.sortItems_eq, Json.sortItems_eq]

/-- Behind any requests, two requests get the same tools exactly when the tools of each name come in
the same order in both, up to the order of keys. -/
theorem order_independent_iff (collision_free : Function.Injective sha256)
    (history : List Body) (asks : Asks body data tools)
    (also : Asks other rest others) :
    OrderIndependent mixed sha256 (run (act mixed sha256) Registry.new history) body other tools others ↔
      ∀ name, Json.AlikeItems (tools.filter (toolName · = name)) (others.filter (toolName · = name)) := by
  have held : (run (act mixed sha256) (Registry.new : Registry N Hash) history).Held sha256 :=
    run_invariant (fun registry body held => act_held collision_free held body) held_new
  rw [orderIndependent_of_held collision_free held asks also, inOrder_eq_iff asks also]

end Freezing
section Samples

def named (name : String) : Json Int :=
  .object [("name", .string name), ("input_schema", .object [("type", .string "object")])]

def nested (name : String) : Json Int :=
  .object [("type", .string "function"), ("function", .object [("name", .string name)])]

def asking (tools : List (Json Int)) : List (String × Json Int) :=
  [("model", .string "m"), ("tools", .array tools)]

def bodyText (tools : List (Json Int)) : List Char := (Json.object (asking tools)).dumps compact

def noMixedSort : MixedSort Int := ⟨fun _ => none, by simp⟩

variable {tools : List (Json Int)} {first second : String}

theorem asks_of_supported (paired : Json.paired (bodyText tools) = true) (full : tools ≠ [])
    (supported : ∀ tool ∈ tools, Supported tool) (proper : ∀ tool ∈ tools, tool.Proper) :
    Asks ⟨bodyText tools, paired⟩ (asking tools) tools where
  parsed := Json.loads_dumps ⟨by simp [asking], trivial, Json.properItems_iff.mpr proper, trivial⟩
  held := rfl
  full := full
  supported := supported

theorem named_asks (paired : Json.paired (bodyText [named first, named second]) = true) :
    Asks ⟨_, paired⟩ (asking [named first, named second]) [named first, named second] := by
  apply asks_of_supported _ (List.cons_ne_nil _ _)
  · simp only [List.forall_mem_cons, List.not_mem_nil, false_imp_iff, implies_true, and_true]
    exact ⟨.named _ first rfl, .named _ second rfl⟩
  · simp [named, Json.Proper, Json.ProperEntries]

theorem nested_asks (paired : Json.paired (bodyText [nested first, nested second]) = true) :
    Asks ⟨_, paired⟩ (asking [nested first, nested second]) [nested first, nested second] := by
  apply asks_of_supported _ (List.cons_ne_nil _ _)
  · simp only [List.forall_mem_cons, List.not_mem_nil, false_imp_iff, implies_true, and_true]
    exact ⟨.nested _ _ first rfl rfl rfl, .nested _ _ second rfl rfl rfl⟩
  · simp [nested, Json.Proper, Json.ProperEntries]

theorem named_paired : Json.paired (bodyText [named "search", named "fetch"]) = true := by decide +kernel

theorem named_swapped_paired : Json.paired (bodyText [named "fetch", named "search"]) = true := by
  decide +kernel

theorem nested_paired : Json.paired (bodyText [nested "search", nested "fetch"]) = true := by
  decide +kernel

theorem nested_swapped_paired : Json.paired (bodyText [nested "fetch", nested "search"]) = true := by
  decide +kernel

/-- Two tools with names of their own may come in any order. -/
theorem named_tools_frozen : OrderIndependent noMixedSort id (run (act noMixedSort id) Registry.new [])
    ⟨_, named_paired⟩ ⟨_, named_swapped_paired⟩
    [named "search", named "fetch"] [named "fetch", named "search"] := by
  have asks := named_asks named_paired
  apply (order_independent_iff Function.injective_id [] asks (named_asks named_swapped_paired)).mpr
  intro name
  have same : [named "search", named "fetch"].filter (toolName · = name) =
      [named "fetch", named "search"].filter (toolName · = name) := by
    have search : toolName (named "search") = "search" := rfl
    have fetch : toolName (named "fetch") = "fetch" := rfl
    by_cases here : name = "search"
    · simp [search, fetch, here]
    · simp [List.filter_cons, search, fetch, Ne.symm here]
  rw [← same]
  apply (Json.alikeItems_iff _ _).mpr rfl
  exact Json.properItems_iff.mpr fun tool member => asks.proper tool (List.mem_of_mem_filter member)

/-- Two tools of the nested kind keep the order of each request. -/
theorem nested_tools_moved : Placed [nested "search", nested "fetch"] [nested "fetch", nested "search"] ∧
    ¬ OrderIndependent noMixedSort id Registry.new ⟨_, nested_paired⟩ ⟨_, nested_swapped_paired⟩
      [nested "search", nested "fetch"] [nested "fetch", nested "search"] := by
  have asks := nested_asks nested_paired
  have also := nested_asks nested_swapped_paired
  constructor
  · refine ⟨[nested "fetch", nested "search"], List.Perm.swap _ _ _, (Json.alikeItems_iff _ ?_).mpr rfl⟩
    exact Json.properItems_iff.mpr also.proper
  · rw [orderIndependent_of_held Function.injective_id held_new asks also, inOrder_eq_iff asks also]
    intro alike
    obtain ⟨_, _, same, first, _⟩ := alike ""
    cases same
    have sorted := (Json.alike_iff (nested "search") (asks.proper _ List.mem_cons_self)).mp first
    have below : ¬ "type" ≤ "function" := by decide
    simp [nested, Json.sortKeys, Json.sortValues, sortBy, List.insertionSort, List.orderedInsert,
      Before, below] at sorted

end Samples
end TokenPak.Proxy.ToolSchemaRegistry
