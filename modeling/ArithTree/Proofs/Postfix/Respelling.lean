import ArithTree.Proofs.Postfix.Meaning

/-!
# The order of tokens and the order of a tree

The machine keeps the order of its tokens: what the tokens put at their places is what the trees on
its stack have at their places, from the bottom of the stack and each tree in postfix order. So the
tokens of a tree that was built are those it was built from, with the operands written anew.
-/

namespace ArithTree

variable {α : Type}

namespace Content

def value? : Content α → Option α
  | operand value => some value
  | operation _ => none

def token (write : α → String) : Content α → Token
  | operand value => .operand (write value)
  | operation op => .operator op

end Content

namespace Tree

def contents : Tree α → List (Content α)
  | operand value => [.operand value]
  | operation op left right => left.contents ++ right.contents ++ [.operation op]

theorem tokensWith_eq_map_contents (write : α → String) (t : Tree α) :
    t.tokensWith write = t.contents.map (Content.token write) := by
  induction t with
  | operand value => simp [contents, Content.token]
  | operation op left right ihl ihr => simp [contents, Content.token, ihl, ihr]

theorem operands_eq_filterMap_contents (t : Tree α) :
    t.operands = t.contents.filterMap Content.value? := by
  induction t with
  | operand value => simp [contents, Content.value?]
  | operation op left right ihl ihr => simp [contents, Content.value?, ihl, ihr]

theorem mem_operands_iff {x : α} {t : Tree α} : x ∈ t.operands ↔ .operand x ∈ t.contents := by
  rw [operands_eq_filterMap_contents, List.mem_filterMap]
  constructor
  · rintro ⟨content, hmem, hvalue⟩
    cases content with
    | operand value =>
        cases hvalue
        exact hmem
    | operation op => contradiction
  · intro hmem
    exact ⟨_, hmem, rfl⟩

end Tree

namespace Postfix

variable {read : String → Option α}

def stackContents (stack : List (Tree α)) : List (Content α) :=
  (stack.map Tree.contents).reverse.flatten

theorem stackContents_cons (t : Tree α) (stack : List (Tree α)) :
    stackContents (t :: stack) = stackContents stack ++ t.contents := by
  simp [stackContents]

theorem exists_content_of_machineStep {stack next : List (Tree α)} {t : Token}
    (h : machineStep read stack t = some next) :
    ∃ content, t.content? read = some content ∧
      stackContents next = stackContents stack ++ [content] := by
  cases t with
  | operand text =>
      obtain ⟨value, hvalue, rfl⟩ := Option.map_eq_some_iff.1 h
      refine ⟨.operand value, ?_, ?_⟩
      · simp [Token.content?, hvalue]
      · simp [stackContents_cons, Tree.contents]
  | operator op =>
      cases stack with
      | nil => contradiction
      | cons right below =>
          cases below with
          | nil => contradiction
          | cons left rest =>
              cases h
              refine ⟨.operation op, rfl, ?_⟩
              simp only [stackContents_cons, Tree.contents, List.append_assoc]
  | opening => contradiction
  | closing => contradiction

theorem exists_contents_of_machineRun {stack next : List (Tree α)} {ts : List Token}
    (h : machineRun read stack ts = some next) :
    ∃ contents, ts.map (Token.content? read) = contents.map some ∧
      stackContents next = stackContents stack ++ contents := by
  induction ts generalizing stack with
  | nil =>
      cases h
      exact ⟨[], rfl, by simp⟩
  | cons t ts ih =>
      rw [machineRun, List.foldlM_cons] at h
      obtain ⟨middle, hstep, hrun⟩ := Option.bind_eq_some_iff.1 h
      obtain ⟨content, hcontent, hmiddle⟩ := exists_content_of_machineStep hstep
      obtain ⟨contents, hcontents, hnext⟩ := ih hrun
      refine ⟨content :: contents, ?_, ?_⟩
      · rw [List.map_cons, List.map_cons, hcontent, hcontents]
      · rw [hnext, hmiddle, List.append_assoc, List.singleton_append]

/-- A list that means a tree puts, token by token, what stands at the places of this tree. -/
theorem map_content?_of_meaning? {ts : List Token} {t : Tree α} (h : meaning? read ts = some t) :
    ts.map (Token.content? read) = t.contents.map some := by
  unfold meaning? at h
  split at h
  · rename_i tree hrun
    cases h
    obtain ⟨contents, hcontents, hstack⟩ := exists_contents_of_machineRun hrun
    have hwhole : t.contents = contents := by simpa [stackContents] using hstack
    rw [hwhole, hcontents]
  · contradiction

theorem operands_of_meaning? {ts : List Token} {t : Tree α} (h : meaning? read ts = some t) :
    t.operands = ts.filterMap fun token => (token.content? read).bind Content.value? := by
  have hcontents := congrArg (List.filterMap fun content => content.bind Content.value?)
    (map_content?_of_meaning? h)
  rw [List.filterMap_map, List.filterMap_map] at hcontents
  rw [Tree.operands_eq_filterMap_contents]
  exact hcontents.symm

theorem bind_value?_content? (t : Token) :
    (t.content? Numeral.read?).bind Content.value? = t.value? := by
  cases t with
  | operand text =>
      cases hread : Numeral.read? text <;>
        simp [Token.content?, Token.value?, Content.value?, hread]
  | operator op => rfl
  | opening => rfl
  | closing => rfl

/-- The operands of a tree that was built are the values of the tokens that have one, in their
order. -/
theorem operands_of_build {ts : List Token} {t : Tree Float} (h : build ts = .ok t) :
    t.operands = ts.filterMap Token.value? := by
  rw [operands_of_meaning? (build_eq_ok_iff.1 h)]
  simp only [bind_value?_content?]

end Postfix

/-- The token with its operand, if it has one, written from what it is read as. -/
def Token.respelled? (t : Token) : Option Token :=
  (t.content? Numeral.read?).map (Content.token Numeral.write)

/-- A tree is written in the tokens that it was built from, each written anew. -/
theorem Postfix.map_respelled?_of_build {ts : List Token} {t : Tree Float}
    (h : build ts = .ok t) : ts.map Token.respelled? = t.tokens.map some := by
  have hcontents := congrArg (List.map (Option.map (Content.token Numeral.write)))
    (map_content?_of_meaning? (build_eq_ok_iff.1 h))
  rw [List.map_map, List.map_map] at hcontents
  rw [Tree.tokens, Tree.tokensWith_eq_map_contents, List.map_map]
  exact hcontents

end ArithTree
