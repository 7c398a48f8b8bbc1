import Mathlib.Logic.Basic
import Stencil.Json.Reader
import Stencil.Proofs.Json.Token

/-!
Documents without binary numbers are read back from their compact text, exactly when their lists and
objects nest no deeper than the reader allows.  The text has the tokens from which it was written,
since a number in a document is followed by punctuation or by nothing.  The reader takes the tokens
of a document off whatever tokens follow and resumes with the document in place of them.
-/

namespace Stencil.Json

open Token

/-- No binary number stands in the document. -/
inductive Exact : Json → Prop
  | null : Exact .null
  | bool (b : Bool) : Exact (.bool b)
  | int (n : Int64) : Exact (.int n)
  | string (t : Text) : Exact (.string t)
  | list {items : List Json} (h : ∀ j ∈ items, Exact j) : Exact (.list items)
  | object {members : List (Text × Json)} (h : ∀ m ∈ members, Exact m.2) : Exact (.object members)

/-- The text of the document has its tokens, whatever comes behind, unless that continues a
number. -/
def TokensRead (j : Json) : Prop :=
  ∀ rest, EndsNumber rest → ofText (j.compact ++ rest) = j.tokens ++ ofText rest

theorem ofText_openList (t : Text) : ofText ('[' :: t) = .openList :: ofText t :=
  ofText_of_scan? rfl rfl

theorem ofText_closeList (t : Text) : ofText (']' :: t) = .closeList :: ofText t :=
  ofText_of_scan? rfl rfl

theorem ofText_openObject (t : Text) : ofText ('\x7b' :: t) = .openObject :: ofText t :=
  ofText_of_scan? rfl rfl

theorem ofText_closeObject (t : Text) : ofText ('\x7d' :: t) = .closeObject :: ofText t :=
  ofText_of_scan? rfl rfl

theorem ofText_comma (t : Text) : ofText (',' :: t) = .comma :: ofText t :=
  ofText_of_scan? rfl rfl

theorem ofText_colon (t : Text) : ofText (':' :: t) = .colon :: ofText t :=
  ofText_of_scan? rfl rfl

theorem endsNumber_laterItems (items : List Json) {rest : Text} (h : EndsNumber rest) :
    EndsNumber ((laterItems items).flatMap Token.text ++ rest) := by
  cases items with
  | nil => exact h
  | cons j items => exact endsNumber_cons (by decide) _

theorem endsNumber_laterMembers (members : List (Text × Json)) {rest : Text}
    (h : EndsNumber rest) :
    EndsNumber ((laterMembers members).flatMap Token.text ++ rest) := by
  cases members with
  | nil => exact h
  | cons m members => exact endsNumber_cons (by decide) _

theorem ofText_laterItems {items : List Json} (h : ∀ j ∈ items, TokensRead j) {rest : Text}
    (hrest : EndsNumber rest) :
    ofText ((laterItems items).flatMap Token.text ++ rest) = laterItems items ++ ofText rest := by
  induction items with
  | nil => rfl
  | cons j items ih =>
      have hitem := h j (by simp) _ (endsNumber_laterItems items hrest)
      have htail := ih fun i hi => h i (List.mem_cons_of_mem _ hi)
      have htext : (laterItems (j :: items)).flatMap Token.text ++ rest =
          ',' :: (j.compact ++ ((laterItems items).flatMap Token.text ++ rest)) := by
        simp [laterItems_cons, Token.text, compact]
      rw [htext, ofText_comma, hitem, htail, laterItems_cons]
      simp

theorem ofText_laterMembers {members : List (Text × Json)} (h : ∀ m ∈ members, TokensRead m.2)
    {rest : Text} (hrest : EndsNumber rest) :
    ofText ((laterMembers members).flatMap Token.text ++ rest) =
      laterMembers members ++ ofText rest := by
  induction members with
  | nil => rfl
  | cons m members ih =>
      obtain ⟨key, j⟩ := m
      have hmember := h (key, j) (by simp) _ (endsNumber_laterMembers members hrest)
      have htail := ih fun i hi => h i (List.mem_cons_of_mem _ hi)
      have htext : (laterMembers ((key, j) :: members)).flatMap Token.text ++ rest =
          ',' :: (quote key ++ ':' ::
            (j.compact ++ ((laterMembers members).flatMap Token.text ++ rest))) := by
        simp [laterMembers_cons, Token.text, compact]
      rw [htext, ofText_comma, ofText_quote_append, ofText_colon, hmember, htail,
        laterMembers_cons]
      simp

theorem tokensRead_list {items : List Json} (h : ∀ j ∈ items, TokensRead j) :
    TokensRead (.list items) := by
  intro rest _
  cases items with
  | nil => exact (ofText_openList _).trans (congrArg _ (ofText_closeList rest))
  | cons j items =>
      have hclose : EndsNumber (']' :: rest) := endsNumber_cons (by decide) rest
      have hitem := h j (by simp) _ (endsNumber_laterItems items hclose)
      have htail := ofText_laterItems (fun i hi => h i (List.mem_cons_of_mem _ hi)) hclose
      have htext : compact (.list (j :: items)) ++ rest =
          '[' :: (j.compact ++ ((laterItems items).flatMap Token.text ++ ']' :: rest)) := by
        simp [compact, tokens_list_cons, Token.text]
      rw [htext, ofText_openList, hitem, htail, ofText_closeList, tokens_list_cons]
      simp

theorem tokensRead_object {members : List (Text × Json)} (h : ∀ m ∈ members, TokensRead m.2) :
    TokensRead (.object members) := by
  intro rest _
  cases members with
  | nil => exact (ofText_openObject _).trans (congrArg _ (ofText_closeObject rest))
  | cons m members =>
      obtain ⟨key, j⟩ := m
      have hclose : EndsNumber ('\x7d' :: rest) := endsNumber_cons (by decide) rest
      have hmember := h (key, j) (by simp) _ (endsNumber_laterMembers members hclose)
      have htail := ofText_laterMembers (fun i hi => h i (List.mem_cons_of_mem _ hi)) hclose
      have htext : compact (.object ((key, j) :: members)) ++ rest =
          '\x7b' :: (quote key ++ ':' ::
            (j.compact ++ ((laterMembers members).flatMap Token.text ++ '\x7d' :: rest))) := by
        simp [compact, tokens_object_cons, Token.text]
      rw [htext, ofText_openObject, ofText_quote_append, ofText_colon, hmember, htail,
        ofText_closeObject, tokens_object_cons]
      simp

theorem Exact.tokensRead {j : Json} (h : j.Exact) : TokensRead j := by
  induction h with
  | null => exact fun rest _ => ofText_of_scan? rfl rfl
  | bool b => cases b <;> exact fun rest _ => ofText_of_scan? rfl rfl
  | int n =>
      intro rest hrest
      simpa [compact, tokens, Token.text] using ofText_int_append n hrest
  | string t =>
      intro rest _
      simpa [compact, tokens, Token.text] using ofText_quote_append t rest
  | list _ ih => exact tokensRead_list ih
  | object _ ih => exact tokensRead_object ih

/-- Where no more than `maxDepth` lists and objects enclose it, the reader takes the tokens of the
document off and has read the document, if it nests no deeper than is left.  Otherwise it fails. -/
def RunTakes (j : Json) : Prop :=
  ∀ frames rest, frames.length ≤ maxDepth →
    (State.value frames).run? (j.tokens ++ rest) =
      if frames.length + j.depth ≤ maxDepth then (State.rest j frames).run? rest else none

theorem run?_item_tokens (j : Json) (frames : List Frame) (rest : List Token) :
    (State.item frames).run? (j.tokens ++ rest) =
      (State.value (.list [] :: frames)).run? (j.tokens ++ rest) := by
  -- only the end of a list sets the two states apart, and no document begins with it
  rcases j with _ | b | n | x | t | ⟨_ | ⟨j, items⟩⟩ | ⟨_ | ⟨⟨key, j⟩, members⟩⟩
  case float =>
    rw [tokens]
    split <;> rfl
  all_goals rfl

theorem run?_laterItems {items : List Json} (h : ∀ i ∈ items, RunTakes i) (j : Json)
    (done : List Json) {frames : List Frame} (hframes : frames.length + 1 ≤ maxDepth)
    (rest : List Token) :
    (State.rest j (.list done :: frames)).run? (laterItems items ++ .closeList :: rest) =
      if frames.length + 1 + itemsDepth items ≤ maxDepth then
        (State.rest (.list ((j :: done).reverse ++ items)) frames).run? rest
      else none := by
  induction items generalizing j done with
  | nil =>
      rw [itemsDepth, if_pos hframes, List.append_nil]
      rfl
  | cons i items ih =>
      have hitem := h i (by simp) (.list (j :: done) :: frames)
        (laterItems items ++ .closeList :: rest) (by simpa using hframes)
      have htail := ih (fun i hi => h i (List.mem_cons_of_mem _ hi)) i (j :: done)
      have hstep : (State.rest j (.list done :: frames)).run?
          (laterItems (i :: items) ++ .closeList :: rest) =
            (State.value (.list (j :: done) :: frames)).run?
              (i.tokens ++ (laterItems items ++ .closeList :: rest)) := by
        rw [laterItems_cons, List.cons_append, List.cons_append, List.append_assoc]
        rfl
      have hdepth : frames.length + 1 + itemsDepth (i :: items) ≤ maxDepth ↔
          frames.length + 1 + i.depth ≤ maxDepth ∧
            frames.length + 1 + itemsDepth items ≤ maxDepth := by
        rw [itemsDepth_cons]
        omega
      rw [hstep, hitem, htail, List.reverse_cons, List.append_assoc]
      simp only [hdepth, ite_and]
      rfl

theorem run?_laterMembers {members : List (Text × Json)} (h : ∀ m ∈ members, RunTakes m.2)
    (key : Text) (j : Json) (done : List (Text × Json)) {frames : List Frame}
    (hframes : frames.length + 1 ≤ maxDepth) (rest : List Token) :
    (State.rest j (.object done key :: frames)).run?
        (laterMembers members ++ .closeObject :: rest) =
      if frames.length + 1 + membersDepth members ≤ maxDepth then
        (State.rest (.object (((key, j) :: done).reverse ++ members)) frames).run? rest
      else none := by
  induction members generalizing key j done with
  | nil =>
      rw [membersDepth, if_pos hframes, List.append_nil]
      rfl
  | cons m members ih =>
      obtain ⟨key', i⟩ := m
      have hmember := h (key', i) (by simp) (.object ((key, j) :: done) key' :: frames)
        (laterMembers members ++ .closeObject :: rest) (by simpa using hframes)
      have htail := ih (fun i hi => h i (List.mem_cons_of_mem _ hi)) key' i ((key, j) :: done)
      have hstep : (State.rest j (.object done key :: frames)).run?
          (laterMembers ((key', i) :: members) ++ .closeObject :: rest) =
            (State.value (.object ((key, j) :: done) key' :: frames)).run?
              (i.tokens ++ (laterMembers members ++ .closeObject :: rest)) := by
        rw [laterMembers_cons]
        simp only [List.cons_append, List.append_assoc]
        rfl
      have hdepth : frames.length + 1 + membersDepth ((key', i) :: members) ≤ maxDepth ↔
          frames.length + 1 + i.depth ≤ maxDepth ∧
            frames.length + 1 + membersDepth members ≤ maxDepth := by
        rw [membersDepth_cons]
        omega
      rw [hstep, hmember, htail, List.reverse_cons, List.append_assoc]
      simp only [hdepth, ite_and]
      rfl

theorem run?_cons (s : State) (token : Token) (later : List Token) :
    s.run? (token :: later) = (s.step? token).bind (·.run? later) := rfl

theorem run?_openList (frames : List Frame) (later : List Token) :
    (State.value frames).run? (.openList :: later) =
      if frames.length < maxDepth then (State.item frames).run? later else none := by
  have hstep : (State.value frames).step? .openList =
      if frames.length < maxDepth then some (.item frames) else none := rfl
  rw [run?_cons, hstep]
  split <;> rfl

theorem run?_openObject (frames : List Frame) (later : List Token) :
    (State.value frames).run? (.openObject :: later) =
      if frames.length < maxDepth then (State.member frames).run? later else none := by
  have hstep : (State.value frames).step? .openObject =
      if frames.length < maxDepth then some (.member frames) else none := rfl
  rw [run?_cons, hstep]
  split <;> rfl

theorem runTakes_int (n : Int64) : RunTakes (.int n) := by
  intro frames rest hframes
  have hnumber : ofInt n.toInt = .int n := by rw [ofInt, toInt64?_toInt]
  have hstep : (State.value frames).step? (.int n.toInt) =
      some (.rest (ofInt n.toInt) frames) := rfl
  have htokens : (Json.int n).tokens ++ rest = .int n.toInt :: rest := rfl
  rw [htokens, run?_cons, hstep, hnumber]
  exact (if_pos hframes).symm

theorem runTakes_list {items : List Json} (h : ∀ i ∈ items, RunTakes i) :
    RunTakes (.list items) := by
  intro frames rest _
  by_cases hroom : frames.length < maxDepth
  · cases items with
    | nil =>
        rw [depth_list, itemsDepth, if_pos (by omega), tokens, List.cons_append, run?_openList,
          if_pos hroom]
        rfl
    | cons j items =>
        have hitem := h j (by simp) (.list [] :: frames) (laterItems items ++ .closeList :: rest)
          hroom
        have htail := run?_laterItems (fun i hi => h i (List.mem_cons_of_mem _ hi)) j [] hroom rest
        have htokens : (Json.list (j :: items)).tokens ++ rest =
            .openList :: (j.tokens ++ (laterItems items ++ .closeList :: rest)) := by
          simp [tokens_list_cons]
        have hdepth : frames.length + (Json.list (j :: items)).depth ≤ maxDepth ↔
            frames.length + 1 + j.depth ≤ maxDepth ∧
              frames.length + 1 + itemsDepth items ≤ maxDepth := by
          rw [depth_list, itemsDepth_cons]
          omega
        rw [htokens, run?_openList, if_pos hroom, run?_item_tokens, hitem, htail]
        simp only [hdepth, ite_and]
        rfl
  · obtain ⟨later, htokens⟩ : ∃ later, (Json.list items).tokens = .openList :: later := by
      cases items <;> exact ⟨_, rfl⟩
    rw [htokens, List.cons_append, run?_openList, if_neg hroom, depth_list, if_neg (by omega)]

theorem runTakes_object {members : List (Text × Json)} (h : ∀ m ∈ members, RunTakes m.2) :
    RunTakes (.object members) := by
  intro frames rest _
  by_cases hroom : frames.length < maxDepth
  · cases members with
    | nil =>
        rw [depth_object, membersDepth, if_pos (by omega), tokens, List.cons_append,
          run?_openObject, if_pos hroom]
        rfl
    | cons m members =>
        obtain ⟨key, j⟩ := m
        have hmember := h (key, j) (by simp) (.object [] key :: frames)
          (laterMembers members ++ .closeObject :: rest) hroom
        have htail := run?_laterMembers (fun i hi => h i (List.mem_cons_of_mem _ hi)) key j [] hroom
          rest
        have htokens : (Json.object ((key, j) :: members)).tokens ++ rest =
            .openObject :: .string key :: .colon ::
              (j.tokens ++ (laterMembers members ++ .closeObject :: rest)) := by
          simp [tokens_object_cons]
        have hdepth : frames.length + (Json.object ((key, j) :: members)).depth ≤ maxDepth ↔
            frames.length + 1 + j.depth ≤ maxDepth ∧
              frames.length + 1 + membersDepth members ≤ maxDepth := by
          rw [depth_object, membersDepth_cons]
          omega
        have hstep (later : List Token) :
            (State.member frames).run? (.string key :: .colon :: later) =
              (State.value (.object [] key :: frames)).run? later := rfl
        rw [htokens, run?_openObject, if_pos hroom, hstep, hmember, htail]
        simp only [hdepth, ite_and]
        rfl
  · obtain ⟨later, htokens⟩ : ∃ later, (Json.object members).tokens = .openObject :: later := by
      rcases members with _ | ⟨⟨key, j⟩, members⟩ <;> exact ⟨_, rfl⟩
    rw [htokens, List.cons_append, run?_openObject, if_neg hroom, depth_object, if_neg (by omega)]

theorem Exact.runTakes {j : Json} (h : j.Exact) : RunTakes j := by
  induction h with
  | null => exact fun frames rest hframes => (if_pos hframes).symm
  | bool b => exact fun frames rest hframes => (if_pos hframes).symm
  | int n => exact runTakes_int n
  | string t => exact fun frames rest hframes => (if_pos hframes).symm
  | list _ ih => exact runTakes_list ih
  | object _ ih => exact runTakes_object ih

/-- A document that nests deeper than the reader allows has a text that is refused. -/
theorem parse?_compact {j : Json} (h : j.Exact) :
    parse? j.compact = if j.depth ≤ maxDepth then some j else none := by
  have htokens := h.tokensRead [] endsNumber_nil
  have hrun := h.runTakes [] [] (Nat.zero_le _)
  rw [List.append_nil] at htokens hrun
  rw [parse?, htokens, ofTokens?, Token.ofText, List.append_nil, hrun, List.length_nil,
    Nat.zero_add]
  split <;> rfl

end Stencil.Json
