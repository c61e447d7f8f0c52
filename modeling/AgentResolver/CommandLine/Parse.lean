import AgentResolver.CommandLine.Arguments
import AgentResolver.Environment

/-!
# The command line of the resolver

`parseArgs` of `src/cli.js`. Options and words may be mixed in any order: `parse_args_exact` says
which command lines are accepted and what is read from them. The name is the last word that is no
flag; a word before it is accepted only when it is empty.
-/

namespace AgentResolver

open JavaScript CommandLine

/-- The object that `parseArgs` returns. A member that it does not set is `none` or false. -/
structure CliArgs where
  servers : List JSString
  name : Option JSString
  help : Bool
  forceSkillDiscovery : Option Bool
  deriving DecidableEq

/-- The loop of `parseArgs`. -/
def parseArgsLoop (args : CliArgs) : List JSString → Except JSError CliArgs
  | [] => .ok args
  | arg :: rest =>
      if arg = text "--server" then
        -- `argv[++i]` is undefined behind the last argument
        match rest with
        | [] => .error ⟨text "--server requires a value"⟩
        | server :: rest =>
            if server.isEmpty then .error ⟨text "--server requires a value"⟩
            else parseArgsLoop { args with servers := args.servers ++ [server] } rest
      else if arg = text "--help" ∨ arg = text "-h" then
        parseArgsLoop { args with help := true } rest
      else if arg = text "--force-skill-discovery" then
        parseArgsLoop { args with forceSkillDiscovery := some true } rest
      else if isFalsy args.name then parseArgsLoop { args with name := some arg } rest
      else .error ⟨text "unexpected argument: " ++ arg⟩

def parseArgs (argv : List JSString) : Except JSError CliArgs :=
  parseArgsLoop ⟨[], none, false, none⟩ argv

/-! ## The loop over the arguments -/

/-- The only option with a value is `--server`. -/
def isServerOption (arg : JSString) : Bool := arg = text "--server"

def isHelpFlag (arg : JSString) : Bool := arg = text "--help" ∨ arg = text "-h"

def isForceFlag (arg : JSString) : Bool := arg = text "--force-skill-discovery"

/-- A text that can only be a name. -/
def isNameWord (arg : JSString) : Bool := !isHelpFlag arg && !isForceFlag arg

/-- What one argument does to the object. -/
def readArgument (args : CliArgs) : Argument JSString → Except JSError CliArgs
  | .option _ server =>
      if isFalsy server then .error ⟨text "--server requires a value"⟩
      else .ok { args with servers := args.servers ++ server.toList }
  | .word arg =>
      if isHelpFlag arg then .ok { args with help := true }
      else if isForceFlag arg then .ok { args with forceSkillDiscovery := some true }
      else if isFalsy args.name then .ok { args with name := some arg }
      else .error ⟨text "unexpected argument: " ++ arg⟩

theorem parse_args_loop_eq (args : CliArgs) (argv : List JSString) :
    parseArgsLoop args argv = (arguments isServerOption argv).foldlM readArgument args := by
  refine loop_eq_fold (fun _ => rfl) ?_ ?_ ?_ args argv
  · intro args arg harg
    rw [parseArgsLoop.eq_def]
    dsimp only
    rw [if_pos (of_decide_eq_true harg)]
    rfl
  · intro args arg server rest harg
    rw [parseArgsLoop.eq_def]
    dsimp only
    rw [if_pos (of_decide_eq_true harg), readArgument]
    by_cases hserver : server.isEmpty
    · rw [if_pos hserver, if_pos (show isFalsy (some server) from hserver)]
      rfl
    · rw [if_neg hserver, if_neg (show ¬ isFalsy (some server) from hserver)]
      rfl
  · intro args arg rest harg
    rw [parseArgsLoop.eq_def]
    dsimp only
    rw [if_neg (of_decide_eq_false harg), readArgument]
    by_cases hhelp : arg = text "--help" ∨ arg = text "-h"
    · rw [if_pos hhelp, if_pos (show isHelpFlag arg from decide_eq_true hhelp)]
      rfl
    · rw [if_neg hhelp, if_neg (show ¬ isHelpFlag arg from mt of_decide_eq_true hhelp)]
      by_cases hforce : arg = text "--force-skill-discovery"
      · rw [if_pos hforce, if_pos (show isForceFlag arg from decide_eq_true hforce)]
        rfl
      · rw [if_neg hforce, if_neg (show ¬ isForceFlag arg from mt of_decide_eq_true hforce)]
        split
        · rfl
        · rfl

/-! ## What is accepted -/

/-- The texts of the arguments that can only be names. -/
def nameWords (read : List (Argument JSString)) : List JSString :=
  (read.filterMap Argument.text).filter isNameWord

/-- The object `result` is `args` with all that is read: every option has a value, and every word
but the last is empty. -/
@[mk_iff]
structure CliArgs.Reads (args : CliArgs) (read : List (Argument JSString)) (result : CliArgs) :
    Prop where
  given : ∀ name value, .option name value ∈ read → isFalsy value = false
  onlyLast : ∀ word ∈ (args.name.toList ++ nameWords read).dropLast, word = []
  servers : result.servers = args.servers ++ read.filterMap Argument.value
  name : result.name = (args.name.toList ++ nameWords read).getLast?
  help : result.help = (args.help || (read.filterMap Argument.text).any isHelpFlag)
  forceSkillDiscovery : result.forceSkillDiscovery =
    if (read.filterMap Argument.text).any isForceFlag then some true else args.forceSkillDiscovery

theorem reads_nil {args result : CliArgs} : args.Reads [] result ↔ result = args := by
  constructor
  · rintro ⟨-, -, hservers, hname, hhelp, hforce⟩
    cases args with
    | mk servers name help force =>
        cases result with
        | mk servers' name' help' force' =>
            cases name <;> simp_all [nameWords]
  · rintro rfl
    cases result with
    | mk servers name help force =>
        cases name with
        | none => exact ⟨by simp, by simp [nameWords], by simp, rfl, by simp, rfl⟩
        | some name => exact ⟨by simp, by simp [nameWords], by simp, rfl, by simp, rfl⟩

/-- A name that counts as not given is only followed by the next one. -/
theorem drop_last_falsy {name : Option JSString} (h : isFalsy name) (word : JSString)
    (rest : List JSString) :
    (∀ other ∈ (name.toList ++ word :: rest).dropLast, other = []) ↔
      ∀ other ∈ (word :: rest).dropLast, other = [] := by
  cases name with
  | none => rfl
  | some name =>
      obtain rfl : name = [] := List.isEmpty_iff.mp h
      show (∀ other ∈ [] :: (word :: rest).dropLast, other = []) ↔ _
      simp

theorem help_not_force {arg : JSString} (h : isHelpFlag arg) : isForceFlag arg = false := by
  rcases of_decide_eq_true h with rfl | rfl <;> decide

theorem reads_option {args : CliArgs} {server : Option JSString} (h : isFalsy server = false)
    (name : JSString) (read : List (Argument JSString)) (result : CliArgs) :
    args.Reads (.option name server :: read) result ↔
      CliArgs.Reads { args with servers := args.servers ++ server.toList } read result := by
  cases server with
  | none => cases h
  | some server =>
      constructor
      · rintro ⟨hgiven, hlast, hservers, hname, hhelp, hforce⟩
        exact ⟨fun name value hmem => hgiven name value (List.mem_cons_of_mem _ hmem), hlast,
          hservers.trans (List.append_assoc args.servers [server] _).symm, hname, hhelp, hforce⟩
      · rintro ⟨hgiven, hlast, hservers, hname, hhelp, hforce⟩
        refine ⟨fun other value hmem => ?_, hlast,
          hservers.trans (List.append_assoc args.servers [server] _), hname, hhelp, hforce⟩
        rcases List.mem_cons.mp hmem with heq | hmem
        · cases heq
          exact h
        · exact hgiven other value hmem

/-- The flags do not count as names. -/
theorem name_words_flag {arg : JSString} (h : isNameWord arg = false)
    (read : List (Argument JSString)) : nameWords (.word arg :: read) = nameWords read :=
  List.filter_cons_of_neg (by rw [h]; exact Bool.false_ne_true)

theorem name_words_name {arg : JSString} (h : isNameWord arg)
    (read : List (Argument JSString)) : nameWords (.word arg :: read) = arg :: nameWords read :=
  List.filter_cons_of_pos h

theorem given_word {arg : JSString} {read : List (Argument JSString)} :
    (∀ name value, .option name value ∈ Argument.word arg :: read → isFalsy value = false) ↔
      ∀ name value, .option name value ∈ read → isFalsy value = false := by
  simp

/-- What is read after a word. -/
theorem reads_word {args next : CliArgs} {arg : JSString}
    (h : readArgument args (.word arg) = .ok next) (read : List (Argument JSString))
    (result : CliArgs) : args.Reads (.word arg :: read) result ↔ next.Reads read result := by
  have htexts : (Argument.word arg :: read).filterMap Argument.text =
      arg :: read.filterMap Argument.text := rfl
  have hvalues : (Argument.word arg :: read).filterMap Argument.value =
      read.filterMap Argument.value := rfl
  unfold readArgument at h
  dsimp only at h
  split at h
  · rename_i hhelp
    cases h
    rw [CliArgs.reads_iff, CliArgs.reads_iff, given_word, htexts, hvalues,
      name_words_flag (by rw [isNameWord, hhelp]; rfl), List.any_cons, List.any_cons, hhelp,
      help_not_force hhelp]
    simp only [Bool.true_or, Bool.or_true, Bool.false_or]
  · split at h
    · rename_i hhelp hforce
      cases h
      rw [CliArgs.reads_iff, CliArgs.reads_iff, given_word, htexts, hvalues,
        name_words_flag (by rw [isNameWord, hforce, Bool.not_true, Bool.and_false]), List.any_cons,
        List.any_cons, hforce, Bool.eq_false_iff.mpr hhelp]
      simp only [Bool.true_or, Bool.false_or, if_true, ite_self]
    · split at h
      · rename_i hhelp hforce hfalsy
        cases h
        rw [Bool.not_eq_true] at hhelp hforce
        rw [CliArgs.reads_iff, CliArgs.reads_iff, given_word, htexts, hvalues,
          name_words_name (by rw [isNameWord, hhelp, hforce]; rfl), drop_last_falsy hfalsy,
          List.any_cons, List.any_cons, hhelp, hforce]
        simp only [Bool.false_or, Option.toList_some, List.singleton_append]
        rw [List.getLast?_append_of_ne_nil]
        simp
      · cases h

/-- An argument that is rejected is not read, whatever follows. -/
theorem not_reads_rejected {args : CliArgs} {argument : Argument JSString} {error : JSError}
    (h : readArgument args argument = .error error) (read : List (Argument JSString))
    (result : CliArgs) : ¬ args.Reads (argument :: read) result := by
  intro hreads
  cases argument with
  | option name server =>
      have hgiven := hreads.given name server List.mem_cons_self
      rw [readArgument, hgiven] at h
      cases h
  | word arg =>
      unfold readArgument at h
      dsimp only at h
      split at h
      · cases h
      · split at h
        · cases h
        · split at h
          · cases h
          · rename_i hhelp hforce hnamed
            rw [Bool.not_eq_true] at hhelp hforce
            have hlast := hreads.onlyLast
            rw [name_words_name (by rw [isNameWord, hhelp, hforce]; rfl)] at hlast
            cases hname : args.name with
            | none => exact hnamed (by rw [hname]; rfl)
            | some name =>
                rw [hname] at hlast hnamed
                exact hnamed (List.isEmpty_iff.mpr (hlast name List.mem_cons_self))

theorem fold_reads (args : CliArgs) (read : List (Argument JSString)) (result : CliArgs) :
    read.foldlM readArgument args = .ok result ↔ args.Reads read result := by
  induction read generalizing args with
  | nil => exact ⟨fun h => reads_nil.mpr (Except.ok.inj h).symm,
      fun h => congrArg Except.ok (reads_nil.mp h).symm⟩
  | cons argument read ih =>
      rw [List.foldlM_cons]
      cases h : readArgument args argument with
      | error error =>
          constructor
          · intro hfold
            cases hfold
          · intro hreads
            exact absurd hreads (not_reads_rejected h read result)
      | ok next =>
          refine (ih next).trans ?_
          cases argument with
          | word arg => exact (reads_word h read result).symm
          | option name server =>
              unfold readArgument at h
              dsimp only at h
              split at h
              · cases h
              · rename_i hserver
                cases h
                exact (reads_option (Bool.eq_false_iff.mpr hserver) name read result).symm

/-- An argument is rejected with a message: a `--server` without a value, or a word after a
name. -/
def Rejects (args : CliArgs) (argument : Argument JSString) (message : JSString) : Prop :=
  (∃ name value, argument = .option name value ∧ isFalsy value ∧
    message = text "--server requires a value") ∨
  (∃ word, argument = .word word ∧ isNameWord word ∧ isFalsy args.name = false ∧
    message = text "unexpected argument: " ++ word)

theorem thrown_message {message : JSString} {error : JSError} :
    ⟨message⟩ = error ↔ error.message = message := by
  constructor
  · intro h
    cases h
    rfl
  · rintro rfl
    rfl

theorem read_argument_error (args : CliArgs) (argument : Argument JSString) (error : JSError) :
    readArgument args argument = .error error ↔ Rejects args argument error.message := by
  cases argument with
  | option name value =>
      cases h : isFalsy value with
      | false => simp [readArgument, Rejects, h]
      | true => simp [readArgument, Rejects, h, thrown_message]
  | word arg =>
      by_cases hhelp : isHelpFlag arg
      · simp [readArgument, Rejects, hhelp, isNameWord]
      · by_cases hforce : isForceFlag arg
        · simp [readArgument, Rejects, hhelp, hforce, isNameWord]
        · cases hname : isFalsy args.name with
          | true => simp [readArgument, Rejects, hhelp, hforce, hname]
          | false =>
              simp [readArgument, Rejects, hhelp, hforce, hname, isNameWord, thrown_message]

/-- A command line is accepted exactly when every `--server` has a value that is not empty and every
word but the last that is no flag is empty; the values are the servers in their order, and the last
word is the name. Else the message is about the first argument that does not fit. -/
theorem parse_args_exact (argv : List JSString) :
    (∀ args, parseArgs argv = .ok args ↔
      CliArgs.Reads ⟨[], none, false, none⟩ (arguments isServerOption argv) args) ∧
    ∀ error, parseArgs argv = .error error ↔
      ∃ before argument after args,
        arguments isServerOption argv = before ++ argument :: after ∧
        CliArgs.Reads ⟨[], none, false, none⟩ before args ∧
        Rejects args argument error.message := by
  rw [parseArgs, parse_args_loop_eq]
  refine ⟨fun args => fold_reads _ _ args, fun error => ?_⟩
  rw [fold_error_iff]
  constructor
  · rintro ⟨before, argument, after, args, hread, hbefore, hargument⟩
    exact ⟨before, argument, after, args, hread, (fold_reads _ _ _).mp hbefore,
      (read_argument_error _ _ _).mp hargument⟩
  · rintro ⟨before, argument, after, args, hread, hbefore, hargument⟩
    exact ⟨before, argument, after, args, hread, (fold_reads _ _ _).mpr hbefore,
      (read_argument_error _ _ _).mpr hargument⟩

end AgentResolver
