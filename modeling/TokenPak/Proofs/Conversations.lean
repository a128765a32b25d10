import TokenPak.Proxy.Translator

/-! Conversations apart from the format in which a body holds them: turns of texts, tool calls and
tool results. What a translation between formats carries over is a conversation again, and it has
the same content when every turn is tidy. -/

namespace TokenPak.Proxy.Translator
open Library

inductive Side where
  | user | assistant
  deriving DecidableEq

/-- A piece of content. The arguments of a call are missing when they are no JSON text; a result has
the texts of its content. -/
inductive Item (N : Type) where
  | text (text : String)
  | call (id name : String) (arguments : Option (Json N))
  | result (id : String) (texts : List String)

structure Turn (N : Type) where
  side : Side
  items : List (Item N)

/-- The texts of each system prompt, and the turns. -/
structure Conversation (N : Type) where
  system : List (List String)
  turns : List (Turn N)

section Content
variable {N : Type}

def filled (texts : List String) : List String := texts.filter (· ≠ "")

/-- An empty text is no content. -/
def Item.solid : Item N → List (Item N)
  | .text line => if line = "" then [] else [.text line]
  | .call id name arguments => [.call id name arguments]
  | .result id texts => [.result id (filled texts)]

def Turn.flat (turn : Turn N) : List (Side × Item N) :=
  turn.items.flatMap fun item => item.solid.map (turn.side, ·)

def Conversation.flat (conversation : Conversation N) : List String × List (Side × Item N) :=
  (conversation.system.flatMap filled, conversation.turns.flatMap Turn.flat)

def Item.text? : Item N → Option String
  | .text line => some line
  | _ => none

def Item.isCall : Item N → Bool
  | .call .. => true
  | _ => false

def Item.isResult : Item N → Bool
  | .result .. => true
  | _ => false

def Item.settled [Numerals N] : Item N → Item N
  | .call id name arguments => .call id name (some (arguments.getD (.object [])))
  | .result id texts => .result id [lines texts]
  | .text line => .text line

def Turn.texts (turn : Turn N) : List String := turn.items.filterMap Item.text?
def Turn.calls (turn : Turn N) : List (Item N) := turn.items.filter Item.isCall
def Turn.results (turn : Turn N) : List (Item N) := turn.items.filter Item.isResult

variable [Numerals N]

/-- What a translation makes of a turn: results alone, or one text in front of the calls. -/
def Turn.carried (turn : Turn N) : Turn N :=
  if turn.calls.isEmpty && !turn.results.isEmpty then ⟨.user, turn.results.map Item.settled⟩
  else ⟨turn.side, .text (lines turn.texts) :: turn.calls.map Item.settled⟩

def Conversation.carried (conversation : Conversation N) : Conversation N where
  system := [["\n\n".intercalate (conversation.system.map lines)]]
  turns := conversation.turns.map Turn.carried

end Content

section Tidiness
variable {N : Type} [Numerals N]

/-- One text in front, calls with arguments that can be read behind it. -/
structure CallTurn (turn : Turn N) : Prop where
  single : turn.texts.length ≤ 1
  ordered : turn.items = turn.texts.map Item.text ++ turn.calls
  readable : ∀ item ∈ turn.calls, item.settled = item

/-- Results of the user alone, each with one text. -/
structure ResultTurn (turn : Turn N) : Prop where
  user : turn.side = .user
  only : ∀ item ∈ turn.items, ∃ id texts, item = .result id texts ∧ texts.length ≤ 1

def Turn.Tidy (turn : Turn N) : Prop := CallTurn turn ∨ ResultTurn turn

structure Conversation.Tidy (conversation : Conversation N) : Prop where
  prompt : conversation.system.length ≤ 1
  single : ∀ texts ∈ conversation.system, texts.length ≤ 1
  turns : ∀ turn ∈ conversation.turns, turn.Tidy

def Item.Solid : Item N → Prop
  | .text line => line ≠ ""
  | .call .. => True
  | .result _ texts => ∀ line ∈ texts, line ≠ ""

/-- No text is empty, and no system prompt is without a text. -/
structure Conversation.Solid (conversation : Conversation N) : Prop where
  prompts : ∀ texts ∈ conversation.system, texts ≠ []
  system : ∀ texts ∈ conversation.system, ∀ text ∈ texts, text ≠ ""
  items : ∀ turn ∈ conversation.turns, ∀ item ∈ turn.items, item.Solid

@[simp] theorem lines_nil : lines [] = "" := rfl
@[simp] theorem lines_single (text : String) : lines [text] = text := rfl

theorem filled_lines {texts : List String} (single : texts.length ≤ 1) :
    filled [lines texts] = filled texts := by
  cases texts with
  | nil => rfl
  | cons text others =>
    cases others with
    | nil => rfl
    | cons other others => simp at single

omit [Numerals N] in
theorem Turn.flat_append (side : Side) (first second : List (Item N)) :
    (Turn.mk side (first ++ second)).flat = (Turn.mk side first).flat ++ (Turn.mk side second).flat := by
  simp [Turn.flat]

theorem CallTurn.no_results {turn : Turn N} (called : CallTurn turn) : turn.results = [] := by
  rw [Turn.results, called.ordered, List.filter_append, List.append_eq_nil_iff]
  constructor
  · rw [List.filter_eq_nil_iff]
    rintro item member
    obtain ⟨text, _, rfl⟩ := List.mem_map.mp member
    simp [Item.isResult]
  · rw [List.filter_eq_nil_iff]
    intro item member
    have call := List.of_mem_filter member
    cases item <;> simp_all [Item.isCall, Item.isResult]

theorem CallTurn.flat_carried {turn : Turn N} (called : CallTurn turn) : turn.carried.flat = turn.flat := by
  have settled : turn.calls.map Item.settled = turn.calls := by
    rw [List.map_congr_left called.readable, List.map_id']
  have carried : turn.carried = ⟨turn.side, [Item.text (lines turn.texts)] ++ turn.calls⟩ := by
    simp [Turn.carried, called.no_results, settled]
  have shape : turn.flat = (Turn.mk turn.side (turn.texts.map Item.text ++ turn.calls)).flat := by
    rw [← called.ordered]
  rw [carried, shape, Turn.flat_append, Turn.flat_append]
  congr 1
  have single := called.single
  cases texts : turn.texts with
  | nil => simp [Turn.flat, Item.solid]
  | cons text others =>
    cases others with
    | nil => rfl
    | cons other others => simp [texts] at single

theorem ResultTurn.flat_carried {turn : Turn N} (answered : ResultTurn turn) :
    turn.carried.flat = turn.flat := by
  have calls : turn.calls = [] := by
    rw [Turn.calls, List.filter_eq_nil_iff]
    intro item member
    obtain ⟨id, texts, rfl, _⟩ := answered.only item member
    simp [Item.isCall]
  have results : turn.results = turn.items := by
    rw [Turn.results, List.filter_eq_self]
    intro item member
    obtain ⟨id, texts, rfl, _⟩ := answered.only item member
    rfl
  by_cases empty : turn.items = []
  · have texts : turn.texts = [] := by simp [Turn.texts, empty]
    simp [Turn.carried, Turn.flat, calls, results, empty, texts, Item.solid]
  · have carried : turn.carried = ⟨turn.side, turn.items.map Item.settled⟩ := by
      simp [Turn.carried, calls, results, empty, answered.user]
    rw [carried, Turn.flat, Turn.flat, List.flatMap_map]
    apply List.flatMap_congr
    intro item member
    obtain ⟨id, texts, rfl, single⟩ := answered.only item member
    simp [Item.settled, Item.solid, filled_lines single]

theorem Turn.Tidy.flat_carried {turn : Turn N} (tidy : turn.Tidy) : turn.carried.flat = turn.flat := by
  rcases tidy with called | answered
  · exact called.flat_carried
  · exact answered.flat_carried

/-- A tidy conversation loses nothing. -/
theorem Conversation.Tidy.flat_carried {conversation : Conversation N} (tidy : conversation.Tidy) :
    conversation.carried.flat = conversation.flat := by
  have system : conversation.carried.system.flatMap filled = conversation.system.flatMap filled := by
    have prompt := tidy.prompt
    have single := tidy.single
    cases held : conversation.system with
    | nil =>
      have whole : conversation.carried.system = [[""]] := by
        rw [Conversation.carried, held]
        rfl
      rw [whole]
      rfl
    | cons texts others =>
      cases others with
      | nil =>
        have whole : conversation.carried.system = [[lines texts]] := by
          rw [Conversation.carried, held]
          rfl
        rw [whole]
        simpa using filled_lines (single texts (by simp [held]))
      | cons other others => simp [held] at prompt
  have turns : conversation.carried.turns.flatMap Turn.flat = conversation.turns.flatMap Turn.flat := by
    rw [Conversation.carried, List.flatMap_map]
    exact List.flatMap_congr fun turn member => (tidy.turns turn member).flat_carried
  rw [Conversation.flat, Conversation.flat, system, turns]

end Tidiness

section Losses
variable {N : Type}

section Shrinking
variable {Element Value : Type} {f g : Element → List Value} {elements : List Element}

theorem length_flatMap_le (shrinks : ∀ element ∈ elements, (f element).length ≤ (g element).length) :
    (elements.flatMap f).length ≤ (elements.flatMap g).length := by
  induction elements with
  | nil => simp
  | cons first others ih =>
    have here := shrinks first List.mem_cons_self
    have behind := ih fun element member => shrinks element (List.mem_cons_of_mem _ member)
    simp only [List.flatMap_cons, List.length_append]
    omega

theorem length_each (shrinks : ∀ element ∈ elements, (f element).length ≤ (g element).length)
    (same : (elements.flatMap f).length = (elements.flatMap g).length) :
    ∀ element ∈ elements, (f element).length = (g element).length := by
  induction elements with
  | nil => simp
  | cons first others ih =>
    have rest := fun element member => shrinks element (List.mem_cons_of_mem first member)
    have shorter := length_flatMap_le rest
    have here := shrinks first List.mem_cons_self
    simp only [List.flatMap_cons, List.length_append] at same
    intro element member
    rcases List.mem_cons.mp member with rfl | behind
    · omega
    · exact ih rest (by omega) element behind

theorem flatMap_each (shrinks : ∀ element ∈ elements, (f element).length ≤ (g element).length)
    (same : elements.flatMap f = elements.flatMap g) : ∀ element ∈ elements, f element = g element := by
  have lengths := length_each shrinks (congrArg List.length same)
  clear shrinks
  induction elements with
  | nil => simp
  | cons first others ih =>
    rw [List.flatMap_cons, List.flatMap_cons] at same
    obtain ⟨head, tail⟩ := List.append_inj same (lengths first List.mem_cons_self)
    intro element member
    rcases List.mem_cons.mp member with rfl | behind
    · exact head
    · exact ih tail (fun element member => lengths element (List.mem_cons_of_mem _ member)) element behind

end Shrinking

theorem filled_of_solid {texts : List String} (solid : ∀ text ∈ texts, text ≠ "") : filled texts = texts :=
  List.filter_eq_self.mpr fun text member => decide_eq_true (solid text member)

theorem solid_of_solid {item : Item N} (solid : item.Solid) : item.solid = [item] := by
  cases item with
  | text line => exact if_neg solid
  | call id name arguments => rfl
  | result id texts => rw [Item.solid, filled_of_solid solid]

theorem flat_of_solid {turn : Turn N} (solid : ∀ item ∈ turn.items, item.Solid) :
    turn.flat = turn.items.map (turn.side, ·) := by
  have pieces : turn.flat = turn.items.flatMap fun item => [(turn.side, item)] :=
    List.flatMap_congr fun item member => by rw [solid_of_solid (solid item member), List.map_singleton]
  rw [pieces, List.map_eq_flatMap]

theorem length_items (turn : Turn N) :
    turn.items.length = turn.texts.length + turn.calls.length + turn.results.length := by
  obtain ⟨side, items⟩ := turn
  simp only [Turn.texts, Turn.calls, Turn.results]
  induction items with
  | nil => rfl
  | cons item items ih =>
    cases item with
    | text line =>
      rw [List.filterMap_cons_some (f := Item.text?) (a := .text line) rfl,
        List.filter_cons_of_neg (by simp [Item.isCall]),
        List.filter_cons_of_neg (by simp [Item.isResult])]
      simp only [List.length_cons]
      omega
    | call id name arguments =>
      rw [List.filterMap_cons_none rfl, List.filter_cons_of_pos rfl,
        List.filter_cons_of_neg (by simp [Item.isResult])]
      simp only [List.length_cons]
      omega
    | result id texts =>
      rw [List.filterMap_cons_none rfl, List.filter_cons_of_neg (by simp [Item.isCall]),
        List.filter_cons_of_pos rfl]
      simp only [List.length_cons]
      omega

theorem texts_solid {turn : Turn N} (solid : ∀ item ∈ turn.items, item.Solid) :
    ∀ text ∈ turn.texts, text ≠ "" := by
  intro text member
  obtain ⟨item, inside, named⟩ := List.mem_filterMap.mp member
  cases item with
  | text line =>
    cases named
    exact solid _ inside
  | call => cases named
  | result => cases named

theorem calls_textless (turn : Turn N) : ∀ item ∈ turn.calls, item.text? = none := by
  intro item member
  have call := List.of_mem_filter member
  cases item with
  | text line => cases call
  | call => rfl
  | result => rfl

theorem results_textless (turn : Turn N) : ∀ item ∈ turn.results, item.text? = none := by
  intro item member
  have result := List.of_mem_filter member
  cases item with
  | text line => cases result
  | call => rfl
  | result => rfl

variable [Numerals N]

/-- What is carried over of a call or a result. -/
def Item.kept : Item N → Item N
  | .call id name arguments => .call id name (some (arguments.getD (.object [])))
  | .result id texts => .result id (filled [lines texts])
  | .text line => .text line

theorem flat_settled {items : List (Item N)} (other : ∀ item ∈ items, item.text? = none) (side : Side) :
    (Turn.mk side (items.map Item.settled)).flat = items.map fun item => (side, item.kept) := by
  suffices pieces : (Turn.mk side (items.map Item.settled)).flat = items.flatMap fun item =>
      [(side, item.kept)] by
    rw [pieces, ← List.map_eq_flatMap]
  rw [Turn.flat, List.flatMap_map]
  apply List.flatMap_congr
  intro item member
  have textless := other item member
  cases item with
  | text line => cases textless
  | call id name arguments => rfl
  | result id texts => rfl

theorem carried_flat (turn : Turn N) :
    (turn.calls = [] ∧ turn.results ≠ [] ∧ turn.carried.flat = turn.results.map fun item =>
      (Side.user, item.kept)) ∨
      turn.carried.flat = (filled [lines turn.texts]).map (fun line => (turn.side, Item.text line)) ++
        turn.calls.map fun item => (turn.side, item.kept) := by
  by_cases answers : turn.calls = [] ∧ turn.results ≠ []
  · left
    have carried : turn.carried = ⟨.user, turn.results.map Item.settled⟩ := by simp [Turn.carried, answers]
    exact ⟨answers.1, answers.2, by rw [carried, flat_settled (results_textless turn)]⟩
  · right
    have carried : turn.carried = ⟨turn.side, [Item.text (lines turn.texts)] ++ turn.calls.map Item.settled⟩ := by
      rw [Turn.carried, if_neg (by simpa using answers)]
      rfl
    rw [carried, Turn.flat_append, flat_settled (calls_textless turn)]
    congr 1
    by_cases empty : lines turn.texts = "" <;> simp [Turn.flat, Item.solid, filled, empty]

theorem length_filled_lines (texts : List String) : (filled [lines texts]).length ≤ 1 :=
  List.length_filter_le _ _

theorem length_filled_lines_le (texts : List String) : (filled [lines texts]).length ≤ texts.length := by
  cases texts with
  | nil => exact Nat.le_refl _
  | cons text others => exact Nat.le_trans (length_filled_lines _) (by simp)

theorem length_carried {turn : Turn N} (solid : ∀ item ∈ turn.items, item.Solid) :
    turn.carried.flat.length ≤ turn.flat.length := by
  have parts := length_items turn
  rw [flat_of_solid solid, List.length_map]
  rcases carried_flat turn with ⟨_, _, carried⟩ | carried
  · rw [carried, List.length_map]
    omega
  · have few := length_filled_lines_le turn.texts
    simp only [carried, List.length_append, List.length_map]
    omega

/-- A turn without empty texts that comes through as it was is tidy. -/
theorem tidy_of_flat {turn : Turn N} (solid : ∀ item ∈ turn.items, item.Solid)
    (same : turn.carried.flat = turn.flat) : turn.Tidy := by
  have parts := length_items turn
  rw [flat_of_solid solid] at same
  have total := congrArg List.length same
  rw [List.length_map] at total
  rcases carried_flat turn with ⟨_, answered, carried⟩ | carried
  · right
    rw [carried, List.length_map] at total
    have results : turn.results = turn.items := by
      apply List.filter_eq_self.mpr
      exact List.length_filter_eq_length_iff.mp total
    have each : ∀ item ∈ turn.items, (Side.user, item.kept) = (turn.side, item) := by
      rw [carried, results] at same
      exact List.map_inj_left.mp same
    obtain ⟨first, inside⟩ := List.exists_mem_of_ne_nil _ (results ▸ answered)
    refine ⟨(congrArg Prod.fst (each first inside)).symm, ?_⟩
    intro item member
    have kept := congrArg Prod.snd (each item member)
    have result : item.isResult = true := List.of_mem_filter (results ▸ member : item ∈ turn.results)
    cases item with
    | text line => cases result
    | call => cases result
    | result id texts =>
      have texts_kept : filled [lines texts] = texts := (Item.result.inj kept).2
      exact ⟨id, texts, rfl, texts_kept ▸ length_filled_lines texts⟩
  · left
    have few := length_filled_lines turn.texts
    have fewer := length_filled_lines_le turn.texts
    simp only [carried, List.length_append, List.length_map] at total
    have single : turn.texts.length ≤ 1 := by omega
    have texts_kept : filled [lines turn.texts] = turn.texts := by
      rw [filled_lines single, filled_of_solid (texts_solid solid)]
    have items : turn.items = turn.texts.map Item.text ++ turn.calls.map Item.kept := by
      have pairs := congrArg (List.map Prod.snd) same
      rw [carried, texts_kept] at pairs
      simpa [Function.comp_def] using pairs.symm
    have called : turn.calls = turn.calls.map Item.kept := by
      have filtered := congrArg (List.filter Item.isCall) items
      rw [List.filter_append] at filtered
      have none_of_texts : (turn.texts.map Item.text).filter Item.isCall = ([] : List (Item N)) := by
        simp [List.filter_eq_nil_iff, Item.isCall]
      have all_of_calls : (turn.calls.map Item.kept).filter Item.isCall = turn.calls.map Item.kept := by
        apply List.filter_eq_self.mpr
        intro item member
        obtain ⟨call, inside, rfl⟩ := List.mem_map.mp member
        have given := List.of_mem_filter inside
        cases call with
        | text line => cases given
        | call => rfl
        | result => cases given
      rwa [none_of_texts, all_of_calls, List.nil_append] at filtered
    refine ⟨single, called ▸ items, ?_⟩
    intro item member
    have kept : item.kept = item := List.map_inj_left.mp ((List.map_id _).trans called) item member |>.symm
    have call := List.of_mem_filter member
    cases item with
    | text line => cases call
    | call => exact kept
    | result => cases call

theorem Conversation.tidy_of_flat {conversation : Conversation N} (solid : conversation.Solid)
    (same : conversation.carried.flat = conversation.flat) : conversation.Tidy := by
  have turns : conversation.turns.flatMap (fun turn => turn.carried.flat) =
      conversation.turns.flatMap Turn.flat := by
    have second := congrArg Prod.snd same
    simpa [Conversation.flat, Conversation.carried, List.flatMap_map] using second
  have prompts : filled ["\n\n".intercalate (conversation.system.map lines)] =
      conversation.system.flatten := by
    have first := congrArg Prod.fst same
    have source : conversation.system.flatMap filled = conversation.system.flatten := by
      rw [← List.flatMap_id]
      exact List.flatMap_congr fun texts member => filled_of_solid (solid.system texts member)
    rw [Conversation.flat, Conversation.flat, source] at first
    simpa [Conversation.carried] using first
  have few : conversation.system.flatten.length ≤ 1 := prompts ▸ List.length_filter_le _ _
  have whole (texts : List String) (member : texts ∈ conversation.system) : texts.length ≤ 1 :=
    Nat.le_trans (List.Sublist.length_le (List.sublist_flatten_of_mem member)) few
  have one : conversation.system.length ≤ 1 := by
    have filled_in := solid.prompts
    cases held : conversation.system with
    | nil => simp
    | cons texts others =>
      cases others with
      | nil => simp
      | cons other others =>
        have first := List.length_pos_of_ne_nil (filled_in texts (by simp [held]))
        have second := List.length_pos_of_ne_nil (filled_in other (by simp [held]))
        simp only [held, List.flatten_cons, List.length_append] at few
        omega
  refine ⟨one, whole, fun turn member => TokenPak.Proxy.Translator.tidy_of_flat (solid.items turn member) ?_⟩
  exact flatMap_each (fun turn member => length_carried (solid.items turn member)) turns turn member

end Losses
end TokenPak.Proxy.Translator
