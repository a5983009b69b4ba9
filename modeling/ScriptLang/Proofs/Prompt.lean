import Mathlib.Data.List.Basic
import ScriptLang.Command
import ScriptLang.Proofs.Failure

/-!
The prompt and the runner of files agree. Each line that is typed is answered as a file that holds
it would be, whatever was typed before it; blank lines are answered with nothing. The answers end
with the input, with the line that leaves the prompt, or with one whose failure is not handled, and
then as the file with that line ends.
-/

set_option autoImplicit false
set_option relaxedAutoImplicit false

namespace ScriptLang

namespace Command

/-- The flags that change what is done with a source text and record nothing. -/
def quietFlags : List String :=
  ["--strict", "--emit", "--debug-tokens", "--debug-ast"]

/-- What is typed at a prompt: the lines without the blanks around them, up to the first that leaves
the prompt. -/
def typedTexts (lines : List (List Char)) : List String :=
  (lines.map fun line => String.ofList (Text.trim Text.isBlank line)).takeWhile (· ≠ "exit")

namespace Output

private theorem empty_append (o : Output) : empty ++ o = o :=
  congrArg₂ Output.mk String.empty_append String.empty_append

private theorem append_assoc (a b c : Output) : a ++ b ++ c = a ++ (b ++ c) :=
  congrArg₂ Output.mk (String.append_assoc ..) (String.append_assoc ..)

end Output

namespace Options

def setAll (opts : Options) (flags : List String) : Options :=
  flags.foldl (fun opts flag => (opts.set? flag).getD opts) opts

private theorem setAll_append (opts : Options) (front back : List String) :
    opts.setAll (front ++ back) = (opts.setAll front).setAll back :=
  List.foldl_append

private theorem exists_set? {flag : String} (quiet : flag ∈ quietFlags) (opts : Options) :
    ∃ changed, opts.set? flag = some changed ∧ changed.verbose = opts.verbose := by
  simp only [quietFlags, List.mem_cons, List.not_mem_nil, or_false] at quiet
  rcases quiet with rfl | rfl | rfl | rfl <;> exact ⟨_, rfl, rfl⟩

private theorem head?_of_set? {opts changed : Options} {flag : String}
    (set : opts.set? flag = some changed) : flag.toList.head? = some '-' := by
  unfold set? at set
  split at set
  case h_6 => cases set
  all_goals decide

private theorem verbose_setAll {flags : List String} (quiet : ∀ flag ∈ flags, flag ∈ quietFlags)
    (opts : Options) : (opts.setAll flags).verbose = opts.verbose := by
  induction flags generalizing opts with
  | nil => rfl
  | cons flag flags ih =>
    obtain ⟨first, others⟩ := List.forall_mem_cons.mp quiet
    obtain ⟨changed, set, kept⟩ := exists_set? first opts
    have rest := ih others changed
    rw [setAll, List.foldl_cons, set]
    exact rest.trans kept

end Options

namespace Plan

variable {opts : Options} {path : String} {flags : List String}

private theorem ofArguments_append (quiet : ∀ flag ∈ flags, flag ∈ quietFlags)
    (more : List String) :
    ofArguments opts path (flags ++ more) = ofArguments (opts.setAll flags) path more := by
  induction flags generalizing opts with
  | nil => rfl
  | cons flag flags ih =>
    obtain ⟨first, others⟩ := List.forall_mem_cons.mp quiet
    obtain ⟨changed, set, -⟩ := Options.exists_set? first opts
    have plain : ¬ (flag = "--help" ∨ flag = "-h") := by
      rintro (rfl | rfl) <;> exact absurd first (by decide)
    have switched : opts.setAll (flag :: flags) = changed.setAll flags := by
      rw [Options.setAll, List.foldl_cons, set]
      rfl
    rw [List.cons_append, ofArguments, if_neg plain, set, switched]
    exact ih others

private theorem ofArguments_path (operand : path.toList.head? ≠ some '-')
    (more : List String) : ofArguments opts "" (path :: more) = ofArguments opts path more := by
  have plain : ¬ (path = "--help" ∨ path = "-h") := by
    rintro (rfl | rfl) <;> exact operand (by decide)
  have unset : opts.set? path = none :=
    Option.eq_none_iff_forall_ne_some.mpr fun _ set => operand (Options.head?_of_set? set)
  rw [ofArguments, if_neg plain, unset]
  dsimp only
  rw [if_neg operand, if_pos rfl]

private theorem ofArguments_of_quiet (quiet : ∀ flag ∈ flags, flag ∈ quietFlags) :
    ofArguments opts path flags = ofArguments (opts.setAll flags) path [] := by
  have set : ofArguments opts path (flags ++ []) = ofArguments (opts.setAll flags) path [] :=
    ofArguments_append quiet []
  rwa [List.append_nil] at set

private theorem ofArguments_flags (quiet : ∀ flag ∈ flags, flag ∈ quietFlags) :
    ofArguments opts "" flags = prompt (opts.setAll flags) := by
  rw [ofArguments_of_quiet quiet, ofArguments, if_pos rfl]

private theorem ofArguments_flags_path {front back : List String}
    (quiet : ∀ flag ∈ front ++ back, flag ∈ quietFlags) (operand : path.toList.head? ≠ some '-')
    (filled : path ≠ "") :
    ofArguments opts "" (front ++ path :: back) = runFile (opts.setAll (front ++ back)) path := by
  obtain ⟨quietFront, quietBack⟩ := List.forall_mem_append.mp quiet
  rw [ofArguments_append quietFront, ofArguments_path operand, ofArguments_of_quiet quietBack,
    ofArguments, if_neg filled, Options.setAll_append]

end Plan

section Lines

variable {opts : Options}

private theorem fromUTF8?_toUTF8 (text : String) : String.fromUTF8? text.toUTF8 = some text := by
  rw [String.fromUTF8?, String.toUTF8_eq_toByteArray, dif_pos text.isValidUTF8]
  rfl

/-- Without records a file is handled as the text that it holds. -/
theorem runFile_toUTF8 (quiet : opts.verbose = false) (path text : String) :
    runFile opts path (.bytes text.toUTF8) = runSource opts text := by
  have silent : traceText opts #[.runFile path] = "" := by
    rw [traceText, quiet]
    rfl
  simp only [runFile, fromUTF8?_toUTF8, silent, Outcome.after]
  rfl

def goesOn (opts : Options) (text : String) : Bool :=
  text = "" || (runSource opts text).ending.isExit

def answer (opts : Options) (text : String) : Output :=
  if text = "" then .empty else (runSource opts text).output

private theorem printed_answer (opts : Options) (text : String) :
    (answer opts text).printed =
      if text = "" then "" else (runSource opts text).output.printed := by
  rw [answer]
  split <;> rfl

private theorem promptLine_of_goesOn {line : List Char} {text : String}
    (typed : String.ofList (Text.trim Text.isBlank line) = text) (stays : text ≠ "exit")
    (goes : goesOn opts text) :
    promptLine opts line = (answer opts text ++ .print promptMark, none) := by
  rw [promptLine, Typed.ofLine, typed, answer]
  dsimp only
  rw [if_neg stays]
  by_cases blank : text = ""
  · rw [if_pos blank, if_pos blank, Output.empty_append]
  · have ends : (runSource opts text).ending.isExit := by simpa [goesOn, blank] using goes
    rw [if_neg blank, if_neg blank]
    exact if_pos ends

private theorem promptLine_of_not_goesOn {line : List Char} {text : String}
    (typed : String.ofList (Text.trim Text.isBlank line) = text) (stays : text ≠ "exit")
    (stops : ¬ goesOn opts text) :
    promptLine opts line = (answer opts text, some (runSource opts text).ending) := by
  obtain ⟨filled, uncaught⟩ : text ≠ "" ∧ ¬ (runSource opts text).ending.isExit := by
    simpa [goesOn] using stops
  rw [promptLine, Typed.ofLine, typed, answer]
  dsimp only
  rw [if_neg stays, if_neg filled, if_neg filled]
  exact if_neg uncaught

private theorem typedTexts_cons {line : List Char} (more : List (List Char)) {text : String}
    (typed : String.ofList (Text.trim Text.isBlank line) = text) :
    typedTexts (line :: more) = if text = "exit" then [] else text :: typedTexts more := by
  rw [typedTexts, List.map_cons, typed]
  split
  · exact List.takeWhile_cons_of_neg (by simpa)
  · exact List.takeWhile_cons_of_pos (by simpa)

/-- The prompt answers what is typed, each line with the mark behind it, up to a line behind which
it does not go on; it ends as that line does. -/
theorem promptLines_eq_foldr (opts : Options) (lines : List (List Char)) :
    let answered := (typedTexts lines).takeWhile (goesOn opts)
    let last := ((typedTexts lines).dropWhile (goesOn opts)).head?
    (promptLines opts lines).1 =
        (answered.map fun text => answer opts text ++ .print promptMark).foldr (· ++ ·)
          (last.elim .empty (answer opts)) ∧
      (promptLines opts lines).2.getD (.exit 0) =
        last.elim (.exit 0) fun text => (runSource opts text).ending := by
  induction lines with
  | nil => exact ⟨rfl, rfl⟩
  | cons line more ih =>
    obtain ⟨text, typed⟩ : ∃ text, String.ofList (Text.trim Text.isBlank line) = text := ⟨_, rfl⟩
    rw [promptLines, typedTexts_cons more typed]
    by_cases leaves : text = "exit"
    · have left : promptLine opts line = (.empty, some (.exit 0)) := by
        rw [promptLine, Typed.ofLine, typed]
        dsimp only
        rw [if_pos leaves]
      rw [if_pos leaves, left]
      exact ⟨rfl, rfl⟩
    rw [if_neg leaves]
    by_cases goes : goesOn opts text
    · rw [promptLine_of_goesOn typed leaves goes, List.takeWhile_cons_of_pos goes,
        List.dropWhile_cons_of_pos goes]
      exact ⟨congrArg (_ ++ ·) ih.1, ih.2⟩
    · rw [promptLine_of_not_goesOn typed leaves goes, List.takeWhile_cons_of_neg goes,
        List.dropWhile_cons_of_neg goes]
      exact ⟨rfl, rfl⟩

private theorem promptLines_append (opts : Options) (first more : List (List Char)) :
    promptLines opts (first ++ more) =
      match promptLines opts first with
      | (output, some ending) => (output, some ending)
      | (output, none) =>
        let (others, ending) := promptLines opts more
        (output ++ others, ending) := by
  induction first with
  | nil => exact Prod.ext (Output.empty_append _).symm rfl
  | cons line first ih =>
    rw [List.cons_append, promptLines, promptLines, ih]
    obtain ⟨output, ending | _⟩ := promptLine opts line
    · obtain ⟨others, ending | _⟩ := promptLines opts first
      · exact Prod.ext (Output.append_assoc ..).symm rfl
      · rfl
    · rfl

/-- What is typed may come in pieces that end with a line feed: the prompt answers the first, and
then, unless that ends it, the others. -/
theorem promptLines_of_pieces (opts : Options) (a b : List Char) :
    let answered (text : List Char) := promptLines opts (Text.splitLines (Text.unifyLineEnds text))
    answered (a ++ '\n' :: b) =
      match answered (a ++ ['\n']) with
      | (output, some ending) => (output, some ending)
      | (output, none) => (output ++ (answered b).1, (answered b).2) := by
  intro answered
  dsimp only [answered]
  rw [Text.lines_append, promptLines_append]

private theorem foldr_answers (opts : Options) (texts : List String) (last : Output) :
    (texts.map fun text => answer opts text ++ .print promptMark).foldr (· ++ ·) last =
      ⟨String.join (texts.map fun text =>
          (if text = "" then "" else (runSource opts text).output.printed) ++ promptMark) ++
          last.printed,
        String.join ((texts.filter (· ≠ "")).map fun text =>
          (runSource opts text).output.complaints) ++ last.complaints⟩ := by
  induction texts with
  | nil => exact congrArg₂ Output.mk String.empty_append.symm String.empty_append.symm
  | cons text more ih =>
    rw [List.map_cons, List.foldr_cons, ih]
    refine congrArg₂ Output.mk ?_ ?_
    · rw [List.map_cons, String.join_cons, String.append_assoc, Output.printed_append,
        printed_answer]
      rfl
    · have silent : (answer opts text).complaints ++ (Output.print promptMark).complaints =
          (answer opts text).complaints := String.append_empty
      rw [Output.complaints_append, silent, answer]
      by_cases blank : text = ""
      · rw [if_pos blank, List.filter_cons_of_neg (by simpa using blank)]
        exact String.empty_append
      · rw [if_neg blank, List.filter_cons_of_pos (by simpa using blank), List.map_cons,
          String.join_cons, String.append_assoc]

/-- Marks between texts may be counted with the text behind or with the text in front of them. -/
private theorem join_marks (mark : String) (shown : String → String) (texts : List String) :
    mark ++ String.join (texts.map fun text => shown text ++ mark) =
      String.join (texts.map fun text => mark ++ shown text) ++ mark := by
  induction texts with
  | nil => exact String.append_empty.trans String.empty_append.symm
  | cons text more ih =>
    rw [List.map_cons, List.map_cons, String.join_cons, String.join_cons, String.append_assoc,
      String.append_assoc, ← ih]
    simp only [String.append_assoc]

theorem runPrompt_eq (opts : Options) (input : String) :
    let texts := typedTexts (Text.splitLines (Text.unifyLineEnds input.toList))
    let answered := texts.takeWhile (goesOn opts)
    let last := (texts.dropWhile (goesOn opts)).head?.map (runSource opts)
    runPrompt opts input = ⟨last.elim (.exit 0) Outcome.ending,
      banner ++ String.join (answered.map fun text =>
        promptMark ++ if text = "" then "" else (runSource opts text).output.printed) ++
        promptMark ++ last.elim "" (·.output.printed),
      String.join ((answered.filter (· ≠ "")).map fun text =>
        (runSource opts text).output.complaints) ++ last.elim "" (·.output.complaints)⟩ := by
  intro texts answered last
  obtain ⟨written, ends⟩ := promptLines_eq_foldr opts
    (Text.splitLines (Text.unifyLineEnds input.toList))
  -- A line that ends the prompt is not blank.
  have final : (texts.dropWhile (goesOn opts)).head?.elim .empty (answer opts) =
      ⟨last.elim "" (·.output.printed), last.elim "" (·.output.complaints)⟩ := by
    cases found : (texts.dropWhile (goesOn opts)).head? with
    | none =>
      simp only [last, found]
      rfl
    | some text =>
      have stops := List.head?_dropWhile_not (goesOn opts) texts
      rw [found] at stops
      have filled : text ≠ "" := by
        rintro rfl
        simp [goesOn] at stops
      simp only [last, found, Option.map_some, Option.elim_some, answer, if_neg filled]
  rw [final, foldr_answers] at written
  refine congrArg₂ Outcome.mk ?_ (congrArg₂ Output.mk ?_ ?_)
  · exact ends.trans (Option.elim_map ..).symm
  · have marks := join_marks promptMark
      (fun text => if text = "" then "" else (runSource opts text).output.printed) answered
    rw [written]
    have moved := congrArg (banner ++ · ++ last.elim "" (·.output.printed)) marks
    simp only [String.append_assoc] at moved ⊢
    exact String.append_assoc.trans moved
  · rw [written]
    exact String.empty_append

private theorem isExit_runProgram_iff (opts : Options) (before : Output) (p : Program) :
    (runProgram opts before p).ending.isExit ↔
      p.run.1 = .ok () ∨ ∃ e, p.run.1 = .error (.error e) := by
  unfold runProgram
  rcases p.run with ⟨stop | ⟨⟩, machine⟩
  · cases stop <;> simp [Ending.isExit, report]
  · simp [Ending.isExit]

/-- What ends the handling of a text without a status: a number of too many digits, or calls nested
too deep where the program is run. -/
theorem not_isExit_runSource_iff (opts : Options) (source : String) :
    ¬ (runSource opts source).ending.isExit ↔
      (∃ n, MeetsTooLong n source) ∨ opts.canonical = false ∧
        ∃ p, Program.ofSource opts.terminators source = .ok p ∧ p.run.1 = .error .tooDeep := by
  simp only [← tokenize_eq_tooLong_iff]
  unfold runSource Program.ofSource
  cases cut : tokenize source with
  | error failure => cases failure <;> simp [Ending.isExit, report]
  | ok tokens =>
    dsimp only
    cases read : Program.ofTokens opts.terminators tokens with
    | error failure =>
      obtain ⟨e, rfl, -⟩ := Program.exists_fault_of_ofTokens (stream_of_tokenize cut) read
      simp [Ending.isExit, report]
    | ok p =>
      dsimp only
      cases opts.canonical with
      | true => simp [Ending.isExit]
      | false =>
        have ends := outcome_of_ofTokens cut read Evaluation.deepest
        change p.run.1 = _ ∨ p.run.1 = _ ∨ _ at ends
        rw [if_neg Bool.false_ne_true, isExit_runProgram_iff]
        obtain done | deep | ⟨e, failed, -⟩ := ends
        · simp [done]
        · simp [deep]
        · have failed : p.run.1 = .error (.error e) := failed
          simp [failed]

theorem runSource_of_digits {digits : List Char} (all : ∀ c ∈ digits, c.isDigit)
    (long : Text.digitLimit < digits.length) (opts : Options) :
    runSource opts (String.ofList digits) =
      ⟨.uncaught (.reading (.lex (.tooLong digits.length))), .empty⟩ := by
  unfold runSource
  rw [tokenize_eq_tooLong_iff.mpr (meetsTooLong_of_digits all long)]

end Lines

section Requests

variable (r : Request) {front back : List String}

def Request.options (r : Request) (flags : List String) : Options :=
  (Options.initial r.listTokens r.outline).setAll flags

private theorem outcome_of_flags {flags : List String} (quiet : ∀ flag ∈ flags, flag ∈ quietFlags) :
    Request.outcome { r with arguments := flags } = runPrompt (r.options flags) r.input := by
  change Plan.outcome _ _ (Plan.ofArguments _ _ flags) = _
  rw [Plan.ofArguments_flags quiet]
  rfl

private theorem outcome_of_path {path : String} (quiet : ∀ flag ∈ front ++ back, flag ∈ quietFlags)
    (filled : path ≠ "") (operand : path.toList.head? ≠ some '-') (text : String) :
    Request.outcome { r with
      arguments := front ++ path :: back
      file := fun name => if name = path then .bytes text.toUTF8 else r.file name } =
      runSource (r.options (front ++ back)) text := by
  have verbose : (r.options (front ++ back)).verbose = false := Options.verbose_setAll quiet _
  change Plan.outcome _ _ (Plan.ofArguments _ _ (front ++ path :: back)) = _
  rw [Plan.ofArguments_flags_path quiet operand filled]
  have content : (if path = path then .bytes text.toUTF8 else r.file path) =
      FileContent.bytes text.toUTF8 := if_pos rfl
  exact (congrArg (runFile (r.options (front ++ back)) path) content).trans
    (runFile_toUTF8 verbose path text)

end Requests

/-- The prompt agrees with the runner of files, for any text that is typed and any flags but that
for records, whichever place the path has among them. It prints the banner, for each line the mark
and what the file with that line prints, and the mark at last; it complains as the files do, one
after the other; and it ends well. Only where such a file ends by a failure that is not handled, the
prompt does so as well: that file is the last one that counts. -/
theorem outcome_prompt (r : Request) (front back : List String) (path : String)
    (quiet : ∀ flag ∈ front ++ back, flag ∈ quietFlags) (filled : path ≠ "")
    (operand : path.toList.head? ≠ some '-') :
    let texts := typedTexts (Text.splitLines (Text.unifyLineEnds r.input.toList))
    let typed : Outcome := Request.outcome { r with arguments := front ++ back }
    let onFile (text : String) : Outcome := Request.outcome { r with
      arguments := front ++ path :: back
      file := fun name => if name = path then .bytes text.toUTF8 else r.file name }
    let goesOn (text : String) : Bool := text = "" || (onFile text).ending.isExit
    let answered := texts.takeWhile goesOn
    let last := (texts.dropWhile goesOn).head?.map onFile
    typed.ending = last.elim (.exit 0) Outcome.ending ∧
      typed.output.complaints =
        String.join ((answered.filter (· ≠ "")).map fun text => (onFile text).output.complaints) ++
          last.elim "" (·.output.complaints) ∧
      typed.output.printed = "Exline v0.2.0 REPL\nType 'exit' to quit\n" ++
        String.join (answered.map fun text =>
          "> " ++ if text = "" then "" else (onFile text).output.printed) ++ "> " ++
          last.elim "" (·.output.printed) := by
  intro texts typed onFile goesOn answered last
  let opts := r.options (front ++ back)
  have onFile_eq : onFile = runSource opts := funext (outcome_of_path r quiet filled operand)
  have same : goesOn = Command.goesOn opts := by
    funext text
    rw [Command.goesOn, ← onFile_eq]
  have typed_eq : typed = runPrompt opts r.input := outcome_of_flags r quiet
  rw [typed_eq, runPrompt_eq]
  simp only [answered, last, same, onFile_eq]
  exact ⟨rfl, rfl, rfl⟩

private theorem typedTexts_of_nines {nines : List Char} (all : ∀ c ∈ nines, c = '9')
    (long : 4 < nines.length) :
    typedTexts (Text.splitLines (Text.unifyLineEnds
      ([' ', '\r', '\n'] ++ (nines ++ ['\n', 'f'])))) = ["", String.ofList nines, "f"] := by
  have plain : ∀ c ∈ nines, c ≠ '\r' ∧ c ≠ '\n' := fun c there => by rw [all c there]; decide
  have unblank : ∀ c ∈ nines, ¬ Text.isBlank c := fun c there => by rw [all c there]; decide
  have stays : String.ofList nines ≠ "exit" := fun same => by
    have lengths := congrArg String.length same
    rw [String.length_ofList] at lengths
    exact absurd lengths (Nat.ne_of_gt long)
  have behind := Text.lines_append nines ['f']
  rw [Text.lines_of_free plain] at behind
  have lines : Text.splitLines (Text.unifyLineEnds
      ([' ', '\r', '\n'] ++ (nines ++ ['\n', 'f']))) = [[' '], nines, ['f']] :=
    (Text.lines_append [' ', '\r'] _).trans (congrArg (_ ++ ·) behind)
  rw [lines, typedTexts_cons _ (by decide : _ = ""),
    typedTexts_cons _ (by rw [Text.trim_eq_self unblank] : _ = String.ofList nines),
    typedTexts_cons _ (by decide : _ = "f"), if_neg (by decide), if_neg stays, if_neg (by decide)]
  rfl

/-- A blank line, a line of 4301 nines and one that is not read any more. -/
theorem outcome_prompt_of_nines :
    let nines := List.replicate 4301 '9'
    let r : Request := ⟨["--strict"], false, true, fun _ => .missing,
      String.ofList ([' ', '\r', '\n'] ++ (nines ++ ['\n', 'f']))⟩
    (∀ flag ∈ ["--strict"] ++ [], flag ∈ quietFlags) ∧
      r.outcome.ending = .uncaught (.reading (.lex (.tooLong 4301))) ∧
      r.outcome.output.complaints = "" ∧
      r.outcome.output.printed = "Exline v0.2.0 REPL\nType 'exit' to quit\n> > " := by
  intro nines r
  have quiet : ∀ flag ∈ ["--strict"] ++ [], flag ∈ quietFlags := by decide
  have filled : "one.exl" ≠ "" := by decide
  have operand : "one.exl".toList.head? ≠ some '-' := by decide
  have nine : ∀ c ∈ nines, c = '9' := fun c there => List.eq_of_mem_replicate there
  have size : nines.length = 4301 := List.length_replicate
  -- Nothing below looks at the nines one by one.
  clear_value nines
  have digits : ∀ c ∈ nines, c.isDigit := fun c there => by rw [nine c there]; rfl
  have failed := runSource_of_digits digits (by rw [size]; decide)
  have texts : typedTexts (Text.splitLines (Text.unifyLineEnds r.input.toList)) =
      ["", String.ofList nines, "f"] := by
    rw [String.toList_ofList]
    exact typedTexts_of_nines nine (by rw [size]; decide)
  have shown : String.ofList nines ≠ "" := fun same => by
    have lengths := congrArg String.length same
    rw [String.length_ofList, size] at lengths
    cases lengths
  have whole := outcome_prompt r ["--strict"] [] "one.exl" quiet filled operand
  simp only [outcome_of_path r quiet filled operand] at whole
  rw [texts] at whole
  -- The blank line is answered, and the next one is the last.
  exact ⟨quiet, by simpa [failed, shown, size, Ending.isExit, Output.empty] using whole⟩

end Command

end ScriptLang
