import ScriptLang.Command

/-!
The program: it reads the arguments, the environment, files and typed lines, and leaves everything
else to `ScriptLang.Command`.
-/

set_option autoImplicit false
set_option relaxedAutoImplicit false

namespace ScriptLang.Command

/-- Writes an output. -/
def Output.write (o : Output) : IO Unit := do
  (← IO.getStdout).putStr o.printed
  (← IO.getStdout).flush
  (← IO.getStderr).putStr o.complaints

/-- Reads a file. -/
def readContent (path : String) : IO FileContent := do
  try
    return .bytes (← IO.FS.readBinFile path)
  catch e =>
    match e with
    | .noFileOrDirectory .. => return .missing
    | .inappropriateType _ code _ | .permissionDenied _ code _ =>
      return .refused (code.toInt32.toInt.natAbs)
    | _ => return .refused 5

/-- Answers typed lines as they come in. -/
partial def serve (opts : Options) : IO Ending := do
  let typed ← (← IO.getStdin).getLine
  if typed.isEmpty then
    return .exit 0
  let (output, ending) := promptLines opts (Text.splitLines (Text.unifyLineEnds typed.toList))
  output.write
  match ending with
  | some ending => return ending
  | none => serve opts

/-- Carries out a plan and tells how it ends. -/
def Plan.carryOut (plan : Plan) : IO Ending := do
  match plan with
  | .prompt opts =>
    (Output.print (banner ++ promptMark)).write
    serve opts
  | _ =>
    let content ←
      match plan with
      | .runFile _ path => readContent path
      | _ => pure .missing
    let outcome := plan.outcome (fun _ => content) ""
    outcome.output.write
    return outcome.ending

end ScriptLang.Command

open ScriptLang.Command in
def main (arguments : List String) : IO UInt32 := do
  let listTokens := (← IO.getEnv "DEBUG_TOKENS").isSome
  let outline := (← IO.getEnv "DEBUG_AST").isSome
  match ← (Plan.ofArguments (.initial listTokens outline) "" arguments).carryOut with
  | .exit status => return status.toUInt32
  | .uncaught failure => throw (IO.userError (reprStr failure))
