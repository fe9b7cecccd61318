import Classpath.CommandLine.ImplicitCheck

/-!
# Where the implicit subcommand is put

Global options may stand in front of the subcommand, one after another, and `--` may close
them.  If the argument after them names no subcommand, `check` is put in front of it, and
nothing else is changed.  Since the place found is the same when `check` stands there,
nothing is put in twice.
-/

namespace Classpath
namespace CommandLine

/-! ## Global options -/

/-- A global option as it may be given. -/
inductive GlobalOption
  /-- A dash and one letter `v` more than the number says. -/
  | verbose (more : Nat)
  | longVerbose
  | help
  | longHelp
  | configIs (file : String)
  /-- The only option that takes two arguments. -/
  | config (file : String)
deriving DecidableEq, Repr

/-- The arguments that an option takes. -/
def GlobalOption.args : GlobalOption → List String
  | verbose more => [String.ofList ('-' :: List.replicate (more + 1) 'v')]
  | longVerbose => ["--verbose"]
  | help => ["-h"]
  | longHelp => ["--help"]
  | configIs file => ["--config=" ++ file]
  | config file => ["--config", file]

theorem GlobalOption.args_cases (option : GlobalOption) :
    (∃ arg, option.args = [arg]) ∨ ∃ file, option.args = ["--config", file] := by
  cases option with
  | config file => exact .inr ⟨file, rfl⟩
  | _ => exact .inl ⟨_, rfl⟩

theorem isRepeatedVerbose_iff {arg : String} :
    isRepeatedVerbose arg = true ↔
      ∃ more, arg = String.ofList ('-' :: List.replicate (more + 1) 'v') := by
  constructor
  · intro h
    rw [isRepeatedVerbose] at h
    split at h
    · next c rest hchars =>
        have hletters : c :: rest = List.replicate (rest.length + 1) 'v' := by
          rw [List.eq_replicate_iff]
          exact ⟨rfl, by simpa using h⟩
        refine ⟨rest.length, ?_⟩
        rw [← hletters, ← hchars, String.ofList_toList]
    · simp at h
  · rintro ⟨more, rfl⟩
    rw [isRepeatedVerbose, String.toList_ofList, List.replicate_succ]
    simp

theorem beginsWith_iff {start arg : String} :
    Text.beginsWith start arg = true ↔ ∃ rest, arg = start ++ rest := by
  rw [Text.beginsWith, List.isPrefixOf_iff_prefix]
  constructor
  · rintro ⟨rest, hrest⟩
    refine ⟨String.ofList rest, String.toList_inj.1 ?_⟩
    rw [String.toList_append, String.toList_ofList, hrest]
  · rintro ⟨rest, rfl⟩
    rw [String.toList_append]
    exact List.prefix_append _ _

/-- The flags are the options that take one argument. -/
theorem isGlobalFlag_iff {arg : String} :
    isGlobalFlag arg = true ↔ ∃ option : GlobalOption, option.args = [arg] := by
  rw [isGlobalFlag, Bool.or_eq_true, Bool.or_eq_true, isRepeatedVerbose_iff, beginsWith_iff,
    List.contains_iff_mem]
  constructor
  · rintro ((⟨more, rfl⟩ | ⟨file, rfl⟩) | hword)
    · exact ⟨.verbose more, rfl⟩
    · exact ⟨.configIs file, rfl⟩
    · rcases List.mem_cons.1 hword with rfl | hword
      · exact ⟨.longVerbose, rfl⟩
      rcases List.mem_cons.1 hword with rfl | hword
      · exact ⟨.help, rfl⟩
      rcases List.mem_singleton.1 hword with rfl
      exact ⟨.longHelp, rfl⟩
  · rintro ⟨option, hargs⟩
    cases option with
    | verbose more => exact .inl (.inl ⟨more, (List.singleton_inj.1 hargs).symm⟩)
    | longVerbose => exact .inr (by simp [← List.singleton_inj.1 hargs])
    | help => exact .inr (by simp [← List.singleton_inj.1 hargs])
    | longHelp => exact .inr (by simp [← List.singleton_inj.1 hargs])
    | configIs file => exact .inl (.inr ⟨file, (List.singleton_inj.1 hargs).symm⟩)
    | config file => simp [GlobalOption.args] at hargs

/-- The argument neither closes the global options nor begins another one. -/
def EndsOptions (arg : String) : Prop :=
  arg ≠ "--" ∧ arg ≠ "--config" ∧ ∀ option : GlobalOption, option.args ≠ [arg]

theorem endsOptions_iff {arg : String} :
    EndsOptions arg ↔ arg ≠ "--" ∧ arg ≠ "--config" ∧ ¬ isGlobalFlag arg = true := by
  rw [EndsOptions, isGlobalFlag_iff, not_exists]

/-! ## Passing over them -/

theorem afterGlobals_flag {arg : String} (h : isGlobalFlag arg = true) (tail : List String) :
    afterGlobals (arg :: tail) = arg :: afterGlobals tail := by
  have hclose : arg ≠ "--" := by
    rintro rfl
    exact absurd h (by decide)
  have hconfig : arg ≠ "--config" := by
    rintro rfl
    exact absurd h (by decide)
  cases tail with
  | nil => simp [afterGlobals, h]
  | cons next rest => simp [afterGlobals, hclose, hconfig, h]

theorem afterGlobals_close (tail : List String) :
    afterGlobals ("--" :: tail) = "--" :: atSubcommand tail := by
  cases tail with
  | nil => simp [afterGlobals, atSubcommand]
  | cons next rest => simp [afterGlobals]

theorem afterGlobals_other {arg : String} (h : EndsOptions arg) (tail : List String) :
    afterGlobals (arg :: tail) = atSubcommand (arg :: tail) := by
  obtain ⟨hclose, hconfig, hflag⟩ := endsOptions_iff.1 h
  cases tail with
  | nil => simp [afterGlobals, hclose, hconfig, hflag]
  | cons next rest => simp [afterGlobals, hclose, hconfig, hflag]

theorem afterGlobals_option (option : GlobalOption) (tail : List String) :
    afterGlobals (option.args ++ tail) = option.args ++ afterGlobals tail := by
  rcases option.args_cases with ⟨arg, hargs⟩ | ⟨file, hargs⟩
  · rw [hargs]
    exact afterGlobals_flag (isGlobalFlag_iff.2 ⟨option, hargs⟩) tail
  · rw [hargs]
    simp [afterGlobals]

theorem afterGlobals_options (options : List GlobalOption) (tail : List String) :
    afterGlobals (options.flatMap GlobalOption.args ++ tail) =
      options.flatMap GlobalOption.args ++ afterGlobals tail := by
  induction options with
  | nil => rfl
  | cons option more ih =>
      rw [List.flatMap_cons, List.append_assoc, afterGlobals_option, ih, List.append_assoc]

/-! ## Arguments that leave the subcommand out -/

/-- The argument `--` that closes the global options, if it is there. -/
def closing (closed : Bool) : List String := if closed then ["--"] else []

/-- Arguments that leave the subcommand out, cut at the place where it belongs. -/
structure Shorthand where
  program : String
  options : List GlobalOption
  /-- The options are closed by `--`. -/
  closed : Bool
  /-- The argument at the place of the subcommand. -/
  first : String
  rest : List String
  no_subcommand : first ∉ ["check", "classes", "help"]
  /-- Unless the options were closed, they end by themselves. -/
  no_option : closed = false → EndsOptions first

namespace Shorthand

/-- What stands before the place of the subcommand. -/
def front (short : Shorthand) : List String :=
  short.program :: (short.options.flatMap GlobalOption.args ++ closing short.closed)

def args (short : Shorthand) : List String := short.front ++ short.first :: short.rest

end Shorthand

/-- The place of the subcommand is the first one after the options and `--`. -/
theorem afterGlobals_front (options : List GlobalOption) {closed : Bool} {first : String}
    (h : closed = false → EndsOptions first) (rest : List String) :
    afterGlobals (options.flatMap GlobalOption.args ++ closing closed ++ first :: rest) =
      options.flatMap GlobalOption.args ++ closing closed ++ atSubcommand (first :: rest) := by
  rw [List.append_assoc, afterGlobals_options, List.append_assoc]
  cases closed with
  | true => exact congrArg _ (afterGlobals_close (first :: rest))
  | false => exact congrArg _ (afterGlobals_other (h rfl) rest)

namespace Shorthand

variable (short : Shorthand)

theorem insertCheck_args :
    insertCheck short.args = short.front ++ "check" :: short.first :: short.rest := by
  have hplace : atSubcommand (short.first :: short.rest) =
      "check" :: short.first :: short.rest := by
    rw [atSubcommand, if_neg]
    rw [List.contains_iff_mem]
    exact short.no_subcommand
  rw [args, front, List.cons_append, insertCheck, afterGlobals_front _ short.no_option, hplace,
    List.cons_append]

/-- Once `check` is there, the scan stops in front of it. -/
theorem insertCheck_insertCheck :
    insertCheck (insertCheck short.args) = insertCheck short.args := by
  rw [insertCheck_args, front, List.cons_append, insertCheck,
    afterGlobals_front _ fun _ => endsOptions_iff.2 (by decide)]
  rfl

theorem insertCheck_args_ne : insertCheck short.args ≠ short.args := by
  intro h
  have hlength := congrArg List.length h
  rw [insertCheck_args, args] at hlength
  simp at hlength

/-- One option more in front. -/
def prepend (option : GlobalOption) : Shorthand :=
  { short with options := option :: short.options }

theorem args_prepend {short : Shorthand} {program : String} {tail : List String}
    (h : short.args = program :: tail) (option : GlobalOption) :
    (short.prepend option).args = program :: (option.args ++ tail) := by
  obtain ⟨rfl, rfl⟩ := List.cons.inj h
  simp [args, front, prepend]

end Shorthand

/-- An argument that names no subcommand, where one belongs. -/
theorem exists_shorthand_of_place (program : String) (closed : Bool) {first : String}
    {rest : List String} (hplace : atSubcommand (first :: rest) ≠ first :: rest)
    (hoption : closed = false → EndsOptions first) :
    ∃ short : Shorthand, short.args = program :: (closing closed ++ first :: rest) := by
  have hfirst : first ∉ ["check", "classes", "help"] := by
    intro hmem
    apply hplace
    rw [atSubcommand, if_pos]
    rw [List.contains_iff_mem]
    exact hmem
  exact ⟨⟨program, [], closed, first, rest, hfirst, hoption⟩, rfl⟩

/-- Whatever is changed by the insertion leaves the subcommand out. -/
theorem exists_shorthand (program : String) {args : List String} (h : afterGlobals args ≠ args) :
    ∃ short : Shorthand, short.args = program :: args := by
  -- Along the scan: an option that is passed over goes in front of what the rest gives.
  fun_induction afterGlobals args with
  | case1 => exact absurd rfl h
  | case2 arg hpassed => exact absurd rfl h
  | case3 arg hother =>
      simp only [Bool.or_eq_true, decide_eq_true_eq, not_or] at hother
      obtain ⟨⟨hconfig, hclose⟩, hflag⟩ := hother
      exact exists_shorthand_of_place program false h
        fun _ => endsOptions_iff.2 ⟨hclose, hconfig, hflag⟩
  | case4 next rest =>
      exact exists_shorthand_of_place program true (fun heq => h (congrArg _ heq)) (by simp)
  | case5 next rest _ ih =>
      obtain ⟨short, hshort⟩ := ih fun heq => h (by rw [heq])
      exact ⟨_, Shorthand.args_prepend hshort (.config next)⟩
  | case6 arg next rest _ _ hflag ih =>
      obtain ⟨short, hshort⟩ := ih fun heq => h (congrArg _ heq)
      obtain ⟨option, hargs⟩ := isGlobalFlag_iff.1 hflag
      refine ⟨short.prepend option, ?_⟩
      rw [Shorthand.args_prepend hshort, hargs]
      rfl
  | case7 arg next rest hclose hconfig hflag =>
      exact exists_shorthand_of_place program false h
        fun _ => endsOptions_iff.2 ⟨hclose, hconfig, hflag⟩

theorem insertCheck_eq_self_or (args : List String) :
    insertCheck args = args ∨ ∃ short : Shorthand, short.args = args := by
  cases args with
  | nil => exact .inl rfl
  | cons program args =>
      by_cases h : afterGlobals args = args
      · exact .inl (congrArg _ h)
      · exact .inr (exists_shorthand program h)

/-- The insertion of `check` changes nothing else and is made once.  It is made exactly for
arguments that leave the subcommand out, at the place of the subcommand. -/
theorem insertCheck_inserts_once (args : List String) :
    insertCheck (insertCheck args) = insertCheck args ∧
    (insertCheck args = args ∨ ∃ front rest, args = front ++ rest ∧
      insertCheck args = front ++ "check" :: rest) ∧
    (insertCheck args ≠ args ↔ ∃ short : Shorthand, short.args = args) ∧
    ∀ short : Shorthand,
      insertCheck short.args = short.front ++ "check" :: short.first :: short.rest := by
  refine ⟨?_, ?_, ?_, Shorthand.insertCheck_args⟩
  · rcases insertCheck_eq_self_or args with hself | ⟨short, rfl⟩
    · rw [hself, hself]
    · exact short.insertCheck_insertCheck
  · rcases insertCheck_eq_self_or args with hself | ⟨short, rfl⟩
    · exact .inl hself
    · exact .inr ⟨short.front, _, rfl, short.insertCheck_args⟩
  · constructor
    · exact (insertCheck_eq_self_or args).resolve_left
    · rintro ⟨short, rfl⟩
      exact short.insertCheck_args_ne

example : insertCheck ["class-closure", "--config", "--", "-vv", "--", "--config", "a.jar"] =
    ["class-closure", "--config", "--", "-vv", "--", "check", "--config", "a.jar"] := by
  decide +kernel

end CommandLine
end Classpath
