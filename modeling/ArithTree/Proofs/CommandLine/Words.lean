import ArithTree.CommandLine

/-!
# The words of a command line

Each word is an option or an expression, and which one it is can be seen without reading the words
before it, up to the two hyphens behind which every word is an expression. What has been heeded is
then a count: the expressions in their order, and how often each setting was asked for.
-/

namespace ArithTree.CommandLine

def isOption (word : String) : Bool :=
  match word.toList with
  | '-' :: _ :: _ => true
  | _ => false

def options : List String → List String
  | [] => []
  | word :: rest =>
      if word = "--" then []
      else if isOption word then word :: options rest
      else options rest

def expressions : List String → List String
  | [] => []
  | word :: rest =>
      if word = "--" then rest
      else if isOption word then expressions rest
      else word :: expressions rest

/-- How often an option asks for a setting: by its name, or by the letter in each of its places. -/
def mentions (setting : Setting) (option : String) : Nat :=
  match option.toList with
  | '-' :: '-' :: name => if longSetting? (String.ofList name) = some setting then 1 else 0
  | '-' :: letter :: letters =>
      (letter :: letters).countP fun letter => shortSetting? letter = some setting
  | _ => 0

def requests (setting : Setting) (words : List String) : Nat :=
  (options words).foldr (fun option asked => mentions setting option + asked) 0

theorem isOption_eq_false_iff {word : String} :
    isOption word = false ↔ ∀ letter letters, word.toList ≠ '-' :: letter :: letters := by
  unfold isOption
  split
  · rename_i letter letters hword
    simp [hword]
  · rename_i hplain
    simpa using hplain

theorem mentions_of_isOption_eq_false {word : String} (h : isOption word = false)
    (setting : Setting) : mentions setting word = 0 := by
  have hplain := isOption_eq_false_iff.1 h
  unfold mentions
  split
  · rename_i name hword
    exact (hplain _ _ hword).elim
  · rename_i letter letters _ hword
    exact (hplain _ _ hword).elim
  · rfl

theorem longSetting?_eq_tree_iff {name : String} :
    longSetting? name = some .tree ↔ name = "tree" := by
  constructor
  · intro h
    unfold longSetting? at h
    split at h <;> first | rfl | contradiction
  · rintro rfl
    rfl

theorem shortSetting?_ne_tree (letter : Char) : shortSetting? letter ≠ some .tree := by
  unfold shortSetting?
  split <;> simp

/-! ## Requests for the tree -/

/-- No letter asks for the tree. -/
theorem mentions_tree (option : String) :
    mentions .tree option = if option = "--tree" then 1 else 0 := by
  unfold mentions
  split
  · rename_i name hoption
    have htree : longSetting? (String.ofList name) = some .tree ↔ option = "--tree" := by
      rw [longSetting?_eq_tree_iff, ← String.toList_inj, ← String.toList_inj, hoption]
      simp
    simp only [htree]
  · rename_i letter letters hhyphen hoption
    have hne : option ≠ "--tree" := by
      rintro rfl
      exact hhyphen (List.cons.inj (List.cons.inj hoption).2).1.symm
    simp [shortSetting?_ne_tree, hne]
  · rename_i hshort
    have hne : option ≠ "--tree" := by
      rintro rfl
      exact hshort '-' ['t', 'r', 'e', 'e'] rfl
    rw [if_neg hne]

theorem requests_tree_pos_iff {words : List String} :
    0 < requests .tree words ↔ "--tree" ∈ options words := by
  unfold requests
  induction options words with
  | nil => simp
  | cons option rest ih =>
      rw [List.foldr_cons, mentions_tree, List.mem_cons, ← ih]
      by_cases htree : option = "--tree"
      · rw [if_pos htree]
        exact iff_of_true (Nat.add_pos_left Nat.one_pos _) (.inl htree.symm)
      · simp [htree, Ne.symm htree]

namespace Arguments

def asked (a : Arguments) : Setting → Nat
  | .tree => a.trees
  | .verbose => a.verbose
  | .quiet => a.quiet
  | .version | .help => 0

/-- From `a` to `b`, the words `given` have been taken for the expression, and each setting has been
asked for as often as `more` says. One word at most can be taken, since an expression is taken only
once. -/
structure Extends (a b : Arguments) (given : List String) (more : Setting → Nat) : Prop where
  expression : b.expression.toList = a.expression.toList ++ given
  asked : ∀ setting, b.asked setting = a.asked setting + more setting

theorem Extends.refl (a : Arguments) : a.Extends a [] fun _ => 0 := ⟨by simp, fun _ => rfl⟩

theorem Extends.trans {a b c : Arguments} {given later : List String} {more again : Setting → Nat}
    (h : a.Extends b given more) (h' : b.Extends c later again) :
    a.Extends c (given ++ later) fun setting => more setting + again setting :=
  ⟨by rw [h'.expression, h.expression, List.append_assoc],
    fun setting => by rw [h'.asked, h.asked, Nat.add_assoc]⟩

/-! ## One word -/

theorem extends_of_heed? {a b : Arguments} {heeded : Option Setting}
    (h : a.heed? heeded = .ok b) :
    a.Extends b [] fun setting => if heeded = some setting then 1 else 0 := by
  cases heeded with
  | none => contradiction
  | some heeded =>
      cases heeded with
      | tree | verbose | quiet =>
          cases h
          exact ⟨by simp, fun setting => by cases setting <;> rfl⟩
      | version | help => contradiction

theorem extends_of_takeExpression {a b : Arguments} {word : String}
    (h : a.takeExpression word = .ok b) : a.Extends b [word] fun _ => 0 := by
  unfold takeExpression at h
  split at h
  · rename_i hnone
    cases h
    exact ⟨by simp [hnone], fun setting => by cases setting <;> rfl⟩
  · contradiction

theorem extends_of_letters {a b : Arguments} {letters : List Char}
    (h : letters.foldlM (fun a letter => a.heed? (shortSetting? letter)) a = .ok b) :
    a.Extends b [] fun setting =>
      letters.countP fun letter => shortSetting? letter = some setting := by
  induction letters generalizing a with
  | nil =>
      cases h
      exact .refl b
  | cons letter rest ih =>
      rw [List.foldlM_cons] at h
      obtain ⟨next, hstep, hrest⟩ := bind_eq_ok_iff.1 h
      have hboth := (extends_of_heed? hstep).trans (ih hrest)
      simpa [List.countP_cons, Nat.add_comm] using hboth

theorem extends_of_heedWord {a b : Arguments} {word : String} (h : a.heedWord word = .ok b) :
    a.Extends b (if isOption word then [] else [word]) fun setting => mentions setting word := by
  unfold heedWord at h
  split at h
  · rename_i name hword
    simpa [isOption, mentions, hword] using extends_of_heed? h
  · rename_i letter letters hhyphen hword
    simpa [isOption, mentions, hword] using extends_of_letters h
  · rename_i hlong hshort
    have hoption := isOption_eq_false_iff.2 hshort
    simpa [hoption, mentions_of_isOption_eq_false hoption] using extends_of_takeExpression h

/-! ## All words -/

theorem extends_of_takeExpressions {a b : Arguments} {words : List String}
    (h : words.foldlM takeExpression a = .ok b) : a.Extends b words fun _ => 0 := by
  induction words generalizing a with
  | nil =>
      cases h
      exact .refl b
  | cons word rest ih =>
      rw [List.foldlM_cons] at h
      obtain ⟨next, hstep, hrest⟩ := bind_eq_ok_iff.1 h
      exact (extends_of_takeExpression hstep).trans (ih hrest)

theorem extends_of_heedAll {a b : Arguments} {words : List String}
    (h : a.heedAll words = .ok b) :
    a.Extends b (expressions words) fun setting => requests setting words := by
  induction words generalizing a with
  | nil =>
      cases h
      exact .refl b
  | cons word rest ih =>
      rw [heedAll] at h
      -- two hyphens alone are neither an option nor an expression, and they end the induction
      split at h
      · rename_i hend
        simpa [expressions, requests, options, hend] using extends_of_takeExpressions h
      · rename_i hend
        obtain ⟨next, hword, hrest⟩ := bind_eq_ok_iff.1 h
        have hboth := (extends_of_heedWord hword).trans (ih hrest)
        cases hoption : isOption word with
        | true => simpa [expressions, requests, options, hend, hoption] using hboth
        | false =>
            have hmentions := mentions_of_isOption_eq_false hoption
            simpa [expressions, requests, options, hend, hoption, hmentions] using hboth

/-- Words that are read without objection hold the expression that was taken, or none, and each
setting was counted as often as the options ask for it. -/
theorem spec_of_read {words : List String} {a : Arguments} (h : read words = .ok a) :
    a.expression.toList = expressions words ∧
      ∀ setting, a.asked setting = requests setting words := by
  obtain ⟨last, hall, hconsistent⟩ := bind_eq_ok_iff.1 h
  split at hconsistent
  · cases hconsistent
    have hextends := extends_of_heedAll hall
    refine ⟨hextends.expression, fun setting => ?_⟩
    rw [hextends.asked]
    cases setting <;> simp [none, asked]
  · contradiction

end Arguments

end ArithTree.CommandLine
