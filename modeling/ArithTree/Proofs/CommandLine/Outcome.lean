import ArithTree.Proofs.CommandLine.Words
import ArithTree.Proofs.Expression.Acceptance
import ArithTree.Proofs.Text.Lines

/-!
# The outcome of a run

A run that is given a text ends in one of two ways. If the text can be parsed, its value, its
postfix form and, on demand, its drawing are printed, and nothing else; if not, nothing is printed,
and the report has a line for each cause. No cause can forge a line, since neither a quoted text nor
a character that is refused breaks one. Ahead of a report stands what is shown of the log, whatever
the conventions for that are.
-/

namespace ArithTree

/-! ## Causes in one line -/

theorem newline_not_mem_message_of_scan {source : String} {cause : Cause}
    (h : Token.scan source = .error cause) : '\n' ∉ cause.message.toList := by
  have hlegible : ¬ ∀ c ∈ source.toList, Token.Legible c := by
    intro hlegible
    obtain ⟨ts, hscan, -, -⟩ := Token.scan_of_legible hlegible
    rw [hscan] at h
    contradiction
  obtain ⟨before, c, after, -, -, hc, hscan⟩ := Token.scan_of_not_legible hlegible
  rw [hscan] at h
  cases h
  have hne : c ≠ '\n' := by
    rintro rfl
    exact hc (by decide)
  show '\n' ∉ ("Unexpected character '" ++ c.toString ++ "' at position " ++
    toString before.length).toList
  simp [hne.symm, Text.newline_not_mem_toDigits]

theorem newline_not_mem_message_of_ofInfix {tokens : List Token} {cause : Cause}
    (h : Postfix.ofInfix tokens = .error cause) : '\n' ∉ cause.message.toList := by
  by_cases hbalanced : Balanced .opening .closing tokens
  · obtain ⟨out, hout, -⟩ := Postfix.ofInfix_of_balanced hbalanced
    rw [hout] at h
    contradiction
  · rw [Postfix.ofInfix_of_not_balanced hbalanced] at h
    cases h
    decide

namespace CommandLine

/-! ## What the program is given -/

/-- Whether the words are understood and `source` is the one expression among them, and whether the
tree is asked for. -/
structure Gives (words : List String) (source : String) (drawsTree : Bool) : Prop where
  read : ∃ a, Arguments.read words = .ok a
  expression : expressions words = [source]
  tree : drawsTree = true ↔ "--tree" ∈ options words

/-- Every text can be given, also one that looks like an option. -/
theorem exists_gives (source : String) (drawsTree : Bool) :
    ∃ words, Gives words source drawsTree := by
  cases drawsTree with
  | false => exact ⟨["--", source], ⟨_, rfl⟩, rfl, by simp [options]⟩
  | true => exact ⟨["--tree", "--", source], ⟨_, rfl⟩, rfl, by simp [options, isOption]⟩

/-- What is put on record on the way from the words to the answer, and how much of it the words ask
to be shown. -/
def logOf (words : List String) (source : String) : Log where
  entries := .started source :: (Expression.parseRecorded source).records.map .parsed
  verbose := requests .verbose words
  quiet := requests .quiet words

theorem Gives.exists_run_eq {words : List String} {source : String} {drawsTree : Bool}
    (h : Gives words source drawsTree) :
    ∃ a, run words = evaluate a ∧ a.source = source ∧ (0 < a.trees ↔ drawsTree = true) ∧
      a.log (Expression.parseRecorded source).records = logOf words source := by
  obtain ⟨a, hread⟩ := h.read
  obtain ⟨hexpression, hasked⟩ := Arguments.spec_of_read hread
  have hsource : a.source = source := by
    rw [h.expression] at hexpression
    have hsome : a.expression = some source := by simpa using hexpression
    rw [Arguments.source, hsome, Option.getD_some]
  have htrees : 0 < a.trees ↔ drawsTree = true := by
    rw [h.tree, ← requests_tree_pos_iff, ← hasked, Arguments.asked]
  have hverbose : a.verbose = requests .verbose words := hasked .verbose
  have hquiet : a.quiet = requests .quiet words := hasked .quiet
  refine ⟨a, by rw [run, hread], hsource, htrees, ?_⟩
  rw [Arguments.log, hsource, hverbose, hquiet, logOf]

/-! ## What the program answers -/

variable (c : Conventions) (log : Log)

/-- Whether the run ends with nothing but a report, behind what is shown of the log: a line with the
text that could not be parsed, an empty one, a heading and the given lines. -/
structure Reports (source : String) (causes : List String) (outcome : Outcome) : Prop where
  code : outcome.code = 1
  standardOutput : outcome.standardOutput c = ""
  standardError : outcome.standardError c = log.text c ++ outcome.complaint
  complaint :
    outcome.complaint.toList.splitOnP (· == '\n') =
      (["Error: could not parse expression " ++ Text.quote source, "", "Caused by:"] ++ causes ++
        [""]).map String.toList

theorem newline_not_mem_causeLines {causes : List String}
    (h : ∀ cause ∈ causes, '\n' ∉ cause.toList) :
    ∀ line ∈ causeLines causes, '\n' ∉ line.toList := by
  intro line hline
  unfold causeLines at hline
  split at hline
  · rename_i single
    rw [List.mem_singleton.1 hline]
    simp [h single List.mem_cons_self]
  · obtain ⟨⟨cause, number⟩, hmem, rfl⟩ := List.mem_map.1 hline
    have hcause := h cause (List.fst_mem_of_mem_zipIdx hmem)
    simp [hcause, Text.newline_not_mem_toDigits]

theorem reports_fail (source : String) {failure : Failure}
    (h : ∀ cause ∈ failure.layers, '\n' ∉ cause.toList) :
    Reports c log source (causeLines failure.layers)
      (fail log ("could not parse expression " ++ Text.quote source) failure) where
  code := rfl
  standardOutput := rfl
  standardError := rfl
  complaint := by
    set lines := ["Error: could not parse expression " ++ Text.quote source, "", "Caused by:"] ++
      causeLines failure.layers with hlines
    have hjoined :
        (fail log ("could not parse expression " ++ Text.quote source) failure).complaint =
          String.join (lines.map fun line => line ++ "\n") := by
      rw [← String.toList_inj]
      simp [fail, complaint, hlines]
    rw [hjoined, Text.toList_join_lines, Text.splitOnP_newline]
    · simp
    · intro line hline
      rcases List.mem_append.1 hline with hheading | hcause
      · simp only [List.mem_cons, List.not_mem_nil, or_false] at hheading
        rcases hheading with rfl | rfl | rfl
        · simp [Text.newline_not_mem_quote]
        · decide
        · decide
      · exact newline_not_mem_causeLines h line hcause

/-- What a run that is given a text answers. -/
structure Answers (source : String) (drawsTree : Bool) (outcome : Outcome) : Prop where
  /-- The code tells whether the text can be parsed. -/
  code : outcome.code = 0 ↔ ∃ e, Expression.parse source = .ok e
  /-- An expression that was parsed has a tree and a value, so nothing can fail after the parse. -/
  accepted : ∀ e, Expression.parse source = .ok e →
    ∃ root, e.root = some root ∧ e.evaluate = .ok root.evaluate ∧
      outcome.standardOutput c = Numeral.write root.evaluate ++ "\n" ++ e.line ++ "\n" ++
        (if drawsTree then root.drawing else "") ∧
      outcome.standardError c = log.text c
  rejected : ∀ failure, Expression.parse source = .error failure →
    outcome.code = 1 ∧ outcome.standardOutput c = "" ∧
      outcome.standardError c = log.text c ++ outcome.complaint
  /-- A character that can not be read is the one cause, -/
  illegible : ∀ cause, Token.scan source = .error cause →
    Reports c log source ["    " ++ cause.message] outcome
  /-- and so is a parenthesis without a partner. -/
  unbalanced : ∀ tokens cause, Token.scan source = .ok tokens →
    Postfix.ofInfix tokens = .error cause → Reports c log source ["    " ++ cause.message] outcome
  /-- Tokens that have no tree are reported with the text whose tree was to be built. -/
  invalid : ∀ ts cause, Postfix.ofText source = .ok ts → Postfix.build ts = .error cause →
    Reports c log source ["    0: Could not build a tree from " ++ Text.quote source,
      "    1: Invalid expression"] outcome

variable {a : Arguments}

theorem evaluate_of_parse {e : Expression} (h : Expression.parse a.source = .ok e) :
    ∃ root, e.root = some root ∧ e.evaluate = .ok root.evaluate ∧
      evaluate a = ⟨0, Numeral.write root.evaluate ++ "\n" ++ e.line ++ "\n" ++
        (if 0 < a.trees then root.drawing else ""), "",
        a.log (Expression.parseRecorded a.source).records, none⟩ := by
  have hparse : (Expression.parseRecorded a.source).result = .ok e := h
  obtain ⟨ts, root, -, -, rfl⟩ := Expression.parse_eq_ok_iff.1 h
  have hvalue : Expression.evaluate ⟨some root, a.source, Token.line ts⟩ = .ok root.evaluate := rfl
  refine ⟨root, rfl, hvalue, ?_⟩
  simp only [evaluate, hparse, hvalue, drawing]

theorem evaluate_of_not_parsed {failure : Failure}
    (h : Expression.parse a.source = .error failure) :
    evaluate a = fail (a.log (Expression.parseRecorded a.source).records)
      ("could not parse expression " ++ Text.quote a.source) failure := by
  have hparse : (Expression.parseRecorded a.source).result = .error failure := h
  simp only [evaluate, hparse]

theorem reports_of_ofText {cause : Cause} (h : Postfix.ofText a.source = .error cause)
    (hmessage : '\n' ∉ cause.message.toList) :
    Reports c (a.log (Expression.parseRecorded a.source).records) a.source
      ["    " ++ cause.message] (evaluate a) := by
  rw [evaluate_of_not_parsed (Expression.parse_of_error h)]
  have hlayers : ∀ line ∈ (Failure.bare cause).layers, '\n' ∉ line.toList := by
    simpa [Failure.layers_bare] using hmessage
  exact reports_fail c _ a.source hlayers

theorem reports_of_build {ts : List Token} {cause : Cause}
    (htext : Postfix.ofText a.source = .ok ts) (h : Postfix.build ts = .error cause) :
    Reports c (a.log (Expression.parseRecorded a.source).records) a.source
      ["    0: Could not build a tree from " ++ Text.quote a.source,
        "    1: Invalid expression"] (evaluate a) := by
  have hnone : Postfix.meaning? Numeral.read? ts = none := by
    rw [← Postfix.tree_constructWith]
    exact (Postfix.buildWith_eq_error_iff.1 h).2
  have hparse := Expression.parse_of_ok htext
  rw [hnone] at hparse
  rw [evaluate_of_not_parsed hparse]
  have hlayers : ∀ line ∈ (Failure.whileBuilding a.source .invalidExpression).layers,
      '\n' ∉ line.toList := by
    intro line hline
    rcases List.mem_pair.1 hline with rfl | rfl
    · simp [Text.newline_not_mem_quote]
    · show '\n' ∉ "Invalid expression".toList
      decide
  exact reports_fail c _ a.source hlayers

theorem answers_evaluate (a : Arguments) :
    Answers c (a.log (Expression.parseRecorded a.source).records) a.source (0 < a.trees)
      (evaluate a) where
  code := by
    cases hparse : Expression.parse a.source with
    | error failure => simp [evaluate_of_not_parsed hparse, fail]
    | ok e =>
        obtain ⟨root, -, -, houtcome⟩ := evaluate_of_parse hparse
        simp [houtcome]
  accepted e h := by
    obtain ⟨root, hroot, hvalue, houtcome⟩ := evaluate_of_parse h
    refine ⟨root, hroot, hvalue, ?_⟩
    simp [houtcome, Outcome.standardOutput, Outcome.standardError]
  rejected failure h := by
    rw [evaluate_of_not_parsed h]
    exact ⟨rfl, rfl, rfl⟩
  illegible cause h := by
    refine reports_of_ofText c ?_ (newline_not_mem_message_of_scan h)
    rw [Postfix.ofText, h]
    rfl
  unbalanced tokens cause hscan h := by
    refine reports_of_ofText c ?_ (newline_not_mem_message_of_ofInfix h)
    rw [Postfix.ofText, hscan]
    exact h
  invalid ts cause htext h := reports_of_build c htext h

/-- Every text can be given to the program, with or without a request for the tree, and with any
requests for a longer or a shorter log. It prints the value, the postfix form and the drawing if
that is asked for, and ends with code 0, exactly if the text can be parsed; otherwise it prints
nothing, and reports one cause or, if only the tree could not be built, two. Apart from the report,
the standard error holds the log as far as it is shown. -/
theorem answers_of_gives (source : String) :
    (∀ drawsTree, ∃ words, Gives words source drawsTree) ∧
      ∀ words drawsTree, Gives words source drawsTree →
        ∀ c, Answers c (logOf words source) source drawsTree (run words) := by
  refine ⟨exists_gives source, fun words drawsTree h c => ?_⟩
  obtain ⟨a, hrun, rfl, htrees, hlog⟩ := h.exists_run_eq
  have hdraws : decide (0 < a.trees) = drawsTree := by
    rw [← Bool.decide_coe drawsTree]
    exact decide_eq_decide.2 htrees
  rw [hrun, ← hlog, ← hdraws]
  exact answers_evaluate c a

example : (run ["7 * 6", "--tree"]).standardOutput .plain =
      "42\n7 6 *\nexpression\n└─ *\n   ├─ 7\n   └─ 6\n" ∧
    (run ["-vvv", "7 * 6"]).standardError .plain =
      "[INFO  expression_tree_cli] Parsing \"7 * 6\"\n" ++
      "[DEBUG expression_tree::interpreter::parser] " ++
      "Converted \"7 * 6\" into postfix [7, 6, *]\n" ++
      "[DEBUG expression_tree::interpreter::syntax::expression_tree] " ++
      "Built expression tree for \"7 * 6\" with 1 operations\n" := by
  decide +kernel

/-- Each of the four endings, for words with options and without. The second text is parsed with the
start of the parse on show. The last text has a line break in it and looks like an option. -/
theorem answers_of_gives_each_ending :
    (∃ e root, Expression.parse "7 * 6" = .ok e ∧ e.root = some root ∧
      (run ["7 * 6", "--tree"]).standardOutput .plain =
        Numeral.write root.evaluate ++ "\n" ++ "7 6 *" ++ "\n" ++ root.drawing) ∧
    (Reports .plain (logOf ["-vv", "7 _ 6"] "7 _ 6") "7 _ 6"
        ["    Unexpected character '_' at position 2"] (run ["-vv", "7 _ 6"]) ∧
      (logOf ["-vv", "7 _ 6"] "7 _ 6").text .plain =
        "[INFO  expression_tree_cli] Parsing \"7 _ 6\"\n") ∧
    Reports .plain (logOf ["--tree", "(7"] "(7") "(7" ["    Mismatched parenthesis"]
      (run ["--tree", "(7"]) ∧
    Reports .plain (logOf ["--", "--\n7"] "--\n7") "--\n7"
      ["    0: Could not build a tree from \"--\\n7\"", "    1: Invalid expression"]
      (run ["--", "--\n7"]) := by
  refine ⟨?_, ⟨?_, ?_⟩, ?_, ?_⟩
  · have htext : Postfix.ofText "7 * 6" =
        .ok [.operand "7", .operand "6", .operator .multiply] := by rfl
    obtain ⟨e, he⟩ := (Expression.exists_parse_iff htext).2
      (.operation .multiply (.operand "7") (.operand "6"))
    have hgives : Gives ["7 * 6", "--tree"] "7 * 6" true := ⟨⟨_, rfl⟩, by decide, by decide⟩
    obtain ⟨root, hroot, -, hprinted, -⟩ :=
      ((answers_of_gives "7 * 6").2 _ _ hgives .plain).accepted e he
    obtain ⟨ts, _, hts, -, rfl⟩ := Expression.parse_eq_ok_iff.1 he
    rw [htext] at hts
    cases hts
    have hline : Token.line [.operand "7", .operand "6", .operator .multiply] = "7 6 *" := by rfl
    refine ⟨_, root, he, hroot, ?_⟩
    rw [hprinted, hline]
    rfl
  · have hgives : Gives ["-vv", "7 _ 6"] "7 _ 6" false := ⟨⟨_, rfl⟩, by decide, by decide⟩
    exact ((answers_of_gives "7 _ 6").2 _ _ hgives .plain).illegible (.unexpectedCharacter '_' 2)
      (by rfl)
  · decide +kernel
  · have hgives : Gives ["--tree", "(7"] "(7" true := ⟨⟨_, rfl⟩, by decide, by decide⟩
    exact ((answers_of_gives "(7").2 _ _ hgives .plain).unbalanced [.opening, .operand "7"]
      .mismatchedParenthesis (by rfl) (by rfl)
  · have hgives : Gives ["--", "--\n7"] "--\n7" false := ⟨⟨_, rfl⟩, by decide, by decide⟩
    exact ((answers_of_gives "--\n7").2 _ _ hgives .plain).invalid
      [.operand "7", .operator .subtract, .operator .subtract] .invalidExpression (by rfl) (by rfl)

end CommandLine

end ArithTree
