/-
# Host.DockerArgs -- which Docker arguments the wrapper lets through

`docker_args::validate` reads the arguments of `luhmen docker` before Docker does,
so it has to read them the way Docker will: mistaking the role of one argument
shifts all that follow.  The first part is the code: `validate`, the option loop
of `exec`, `run` and `create` with its index (`optionsLoop`, which also returns what
it took), and the two option tables.

The second part compares the loop with the rules of `Theory.OptionParser`, for any
grammar that has the tables' options with the tables' arities (`Extends`).  One
option argument is a step of both (`optionTokens_sound`, `optionTokens_complete`), and
`optionsLoop_sound` and `optionsLoop_complete` run them side by side.
-/
import Luhmen.Theory.OptionParser
import Luhmen.Theory.Outcome

namespace Luhmen.Host

open Luhmen.Theory Luhmen.Theory.OptionParser

set_option autoImplicit false

def directCli : String :=
  "use `docker --context luhmen ...` directly for unsupported option syntax"

inductive CommandKind where
  | exec
  | create
  deriving DecidableEq, Repr

/-! ## The option tables -/

def createBooleans : List String :=
  ["disable-content-trust", "init", "no-healthcheck", "oom-kill-disable", "publish-all", "quiet",
   "read-only", "rm", "sig-proxy", "use-api-socket"]

def createValues : List String :=
  ["add-host", "annotation", "attach", "blkio-weight", "blkio-weight-device", "cap-add",
   "cap-drop", "cgroup-parent", "cgroupns", "cidfile", "cpu-count", "cpu-percent", "cpu-period",
   "cpu-quota", "cpu-rt-period", "cpu-rt-runtime", "cpu-shares", "cpus", "cpuset-cpus",
   "cpuset-mems", "device", "device-cgroup-rule", "device-read-bps", "device-read-iops",
   "device-write-bps", "device-write-iops", "dns", "dns-option", "dns-search", "domainname",
   "entrypoint", "expose", "gpus", "group-add", "health-cmd", "health-interval", "health-retries",
   "health-start-interval", "health-start-period", "health-timeout", "hostname",
   "io-maxbandwidth", "io-maxiops", "ip", "ip6", "ipc", "isolation", "label", "label-file",
   "link", "link-local-ip", "log-driver", "log-opt", "mac-address", "memory",
   "memory-reservation", "memory-swap", "memory-swappiness", "mount", "name", "network",
   "network-alias", "oom-score-adj", "pid", "pids-limit", "platform", "publish", "pull",
   "restart", "runtime", "security-opt", "shm-size", "stop-signal", "stop-timeout", "storage-opt",
   "sysctl", "tmpfs", "ulimit", "userns", "uts", "volume", "volume-driver", "volumes-from"]

def longOption (name : List Char) (command : CommandKind) : Option Arity :=
  let name := String.ofList name
  if name ∈ ["debug", "help", "version"] then some .boolean
  else if name = "log-level" then some .value
  else if name ∈ ["detach", "interactive", "tty", "privileged"] then some .boolean
  else if name ∈ ["detach-keys", "env", "env-file", "user", "workdir"] then some .value
  else if command = .exec then none
  else if name ∈ createBooleans then some .boolean
  else if name ∈ createValues then some .value
  else none

/-- The arities of `short_options`. -/
def shortArity (command : CommandKind) (letter : Char) : Option Arity :=
  if letter ∈ ['d', 'i', 't', 'D'] then some .boolean
  else
    match command with
    | .exec =>
        if letter ∈ ['h', 'v'] then some .boolean
        else if letter ∈ ['e', 'u', 'w', 'l'] then some .value
        else none
    | .create =>
        if letter ∈ ['P', 'q'] then some .boolean
        else if letter ∈ ['a', 'c', 'e', 'h', 'l', 'm', 'p', 'u', 'v', 'w'] then some .value
        else none

/-! ## The option loop -/

def requireValue (args : List Arg) (index : Nat) (option : List Char) : Result Nat :=
  if (args[index + 1]?).isSome then .ok 2
  else fail ("Docker option " ++ String.ofList option ++ " requires a value; " ++ directCli)

/-- The letters of a cluster, the first of them at its offset. -/
def shortLetters (args : List Arg) (index : Nat) (command : CommandKind) : List Char → Result Nat
  | [] => .ok 1
  | name :: rest =>
      if name = 'H' then fail "Docker host overrides are not allowed in the luhmen wrapper"
      else if name = 'c' ∧ command ≠ .create then
        fail "Docker context overrides are not allowed in the luhmen wrapper"
      else
        match shortArity command name with
        | none => fail ("unsupported Docker short option -" ++ String.ofList [name] ++ "; " ++ directCli)
        | some .value => if rest = [] then requireValue args index [name] else .ok 1
        | some .boolean =>
            if rest.head? = some '=' then .ok 1 else shortLetters args index command rest

def shortOptions (args : List Arg) (index : Nat) (command : CommandKind) (arg : Arg) : Result Nat :=
  shortLetters args index command arg.tail

/-- How many arguments the option argument at `index` takes. -/
def optionTokens (args : List Arg) (index : Nat) (command : CommandKind) (arg : Arg) : Result Nat :=
  if "--".toList <+: arg then
    let (name, inline) := splitOnce (arg.drop 2)
    match longOption name command with
    | none => fail ("unsupported Docker option --" ++ String.ofList name ++ "; " ++ directCli)
    | some .boolean => .ok 1
    | some .value => if inline.isSome then .ok 1 else requireValue args index name
  else shortOptions args index command arg

/-- The loop of `validate_container_options`: how many arguments each option took,
and the index at which the loop ended. -/
def optionsLoop (args : List Arg) (command : CommandKind) : Nat → Nat → Result (List Nat × Nat)
  | 0, _ => .error .diverges
  | fuel + 1, index =>
      match args[index]? with
      | none => .ok ([], index)
      | some arg =>
          if arg = "--".toList ∨ arg = "-".toList ∨ arg.head? ≠ some '-' then .ok ([], index)
          else
            match optionTokens args index command arg with
            | .error failure => .error failure
            | .ok consumed =>
                (optionsLoop args command fuel (index + consumed)).map
                  fun rest => (consumed :: rest.1, rest.2)

def validateContainerOptions (args : List Arg) (command : CommandKind) : Result Unit :=
  (optionsLoop args command (args.length + 1) 0).map fun _ => ()

/-! ## `validate` -/

/-- The loop over the arguments of any other command. -/
def otherOptions : List Arg → Result Unit
  | [] => .ok ()
  | arg :: rest =>
      if arg = "--builder".toList ∨ "--builder=".toList <+: arg then
        fail ("Docker builder overrides are not allowed in the luhmen wrapper; " ++ directCli)
      else if arg.head? = some '-' ∧ arg.tail.head? ≠ some '-' ∧ ('c' ∈ arg.tail ∨ 'H' ∈ arg.tail) then
        fail ("ambiguous Docker short target option; " ++ directCli)
      else otherOptions rest

/-- Whether `arg`, up to its first `=`, is a global target option. -/
def TargetOverride (arg : Arg) : Prop :=
  (splitOnce arg).1 ∈ ["--context".toList, "--host".toList, "--config".toList]

instance : DecidablePred TargetOverride := fun arg =>
  inferInstanceAs (Decidable ((splitOnce arg).1 ∈ ["--context".toList, "--host".toList, "--config".toList]))

def validateCommand (command : Arg) (options : List Arg) : Result Unit :=
  if command = "exec".toList then validateContainerOptions options .exec
  else if command = "run".toList ∨ command = "create".toList then
    validateContainerOptions options .create
  else otherOptions options

def validate (args : List Arg) : Result Unit :=
  match args with
  | [] => fail "provide a Docker workload command"
  | command :: remaining =>
      if command = [] ∨ command.head? = some '-' ∨ command = "context".toList then
        fail "provide a Docker workload command; manage Docker contexts directly with the Docker CLI"
      else if ∃ arg ∈ args, TargetOverride arg then
        fail "Docker endpoint or configuration overrides are not allowed in the luhmen wrapper"
      else if command = "container".toList then
        match remaining with
        | [] => .ok ()
        | subcommand :: options =>
            if subcommand.head? = some '-' then
              fail ("place the container subcommand before its options; " ++ directCli)
            else validateCommand subcommand options
      else validateCommand command remaining

example : validate (["run", "-v", "/:/host", "--rm", "--network=host", "image", "-H"].map String.toList) =
    .ok () := by decide

/-! ## The rules of Docker's parser -/

/-- A grammar with the options of the tables, with their arities, and any others. -/
structure Extends (G : Grammar) (command : CommandKind) : Prop where
  long : ∀ name arity, longOption name command = some arity → G.long name = some arity
  short : ∀ letter arity, shortArity command letter = some arity → G.short letter = some arity

/-- An option of the tables. -/
def Known (command : CommandKind) : Flag → Prop
  | .long name => (longOption name command).isSome = true
  | .short letter => (shortArity command letter).isSome = true

instance (command : CommandKind) : DecidablePred (Known command) := fun flag =>
  match flag with
  | .long name => inferInstanceAs (Decidable ((longOption name command).isSome = true))
  | .short letter => inferInstanceAs (Decidable ((shortArity command letter).isSome = true))

/-- An option that moves Docker to another target. -/
def Overrides (command : CommandKind) (flag : Flag) : Prop :=
  flag ∈ [.long "host".toList, .long "context".toList, .long "config".toList,
    .long "builder".toList, .short 'H'] ∨ (command = .exec ∧ flag = .short 'c')

theorem known_not_overrides {command : CommandKind} {flag : Flag} (known : Known command flag) :
    ¬ Overrides command flag := by
  rintro (listed | ⟨rfl, rfl⟩)
  · simp only [List.mem_cons, List.not_mem_nil, or_false] at listed
    rcases listed with rfl | rfl | rfl | rfl | rfl <;> cases command <;>
      exact absurd known (by decide)
  · exact absurd known (by decide)

section Step

variable {G : Grammar} {command : CommandKind} {args : List Arg} {index : Nat}

theorem requireValue_ok {option : List Char} {consumed : Nat}
    (ok : requireValue args index option = .ok consumed) :
    ∃ value, args[index + 1]? = some value ∧ consumed = 2 := by
  unfold requireValue at ok
  split at ok
  · rename_i present
    obtain ⟨value, found⟩ := Option.isSome_iff_exists.1 present
    exact ⟨value, found, (Except.ok.inj ok).symm⟩
  · simp [fail] at ok

theorem requireValue_some {option : List Char} {value : Arg} (found : args[index + 1]? = some value) :
    requireValue args index option = .ok 2 := by
  rw [requireValue, found]
  rfl

/-- A parse that fails, or takes `consumed` arguments for options of the tables. -/
def Agrees (command : CommandKind) (consumed : Nat)
    (result : Except Error (List (Flag × Arg) × Bool)) : Prop :=
  (∃ error, result = .error error) ∨ ∃ set takesNext, result = .ok (set, takesNext) ∧
    width takesNext = consumed ∧ ∀ entry ∈ set, Known command entry.1

theorem agrees_assign {flag : Flag} {value : Arg} {takesNext : Bool} (known : Known command flag) :
    Agrees command (width takesNext)
      ((assign G flag value).map fun set => (set, takesNext)) := by
  unfold assign
  split
  · exact .inr ⟨[(flag, value)], takesNext, rfl, rfl, by simpa using known⟩
  · exact .inl ⟨_, rfl⟩

theorem shortLetters_sound (extended : Extends G command) {letters : List Char} {consumed : Nat}
    (ok : shortLetters args index command letters = .ok consumed) :
    Agrees command consumed (cluster G letters args[index + 1]?) := by
  induction letters with
  | nil =>
      obtain rfl := Except.ok.inj ok
      exact .inr ⟨[], false, rfl, rfl, by simp⟩
  | cons name rest ih =>
      rw [shortLetters] at ok
      split at ok
      · simp [fail] at ok
      · split at ok
        · simp [fail] at ok
        · split at ok
          · simp [fail] at ok
          · rename_i isValue
            have known : Known command (.short name) := by simp [Known, isValue]
            have isValue := extended.short _ _ isValue
            split at ok
            · rename_i last
              subst last
              obtain ⟨value, found, rfl⟩ := requireValue_ok ok
              rw [found, cluster_next isValue]
              exact agrees_assign known
            · rename_i more
              obtain rfl := Except.ok.inj ok
              rw [cluster_rest isValue more]
              exact agrees_assign known
          · rename_i isBoolean
            have known : Known command (.short name) := by simp [Known, isBoolean]
            have isBoolean := extended.short _ _ isBoolean
            split at ok
            · rename_i inline
              obtain rfl := Except.ok.inj ok
              rw [cluster_inline isBoolean inline]
              exact agrees_assign known
            · rename_i going
              rw [cluster_boolean isBoolean going]
              cases assigned : assign G (.short name) "true".toList with
              | error error => exact .inl ⟨error, rfl⟩
              | ok set =>
                  obtain rfl := assign_set assigned
                  rcases ih ok with ⟨error, failed⟩ | ⟨more, takesNext, parsed, width, allKnown⟩
                  · exact .inl ⟨error, by rw [failed]; rfl⟩
                  · refine .inr ⟨_, takesNext, by rw [parsed]; rfl, width, ?_⟩
                    exact List.forall_mem_cons.2 ⟨known, allKnown⟩

theorem optionTokens_sound (extended : Extends G command) {arg : Arg} {consumed : Nat}
    (ok : optionTokens args index command arg = .ok consumed) :
    Agrees command consumed (option G arg args[index + 1]?) := by
  unfold optionTokens at ok
  unfold option
  split at ok
  · rename_i isLong
    rw [if_pos isLong, long]
    cases splits : splitOnce (arg.drop 2) with
    | mk name inline =>
        rw [splits] at ok
        dsimp only at ok ⊢
        split at ok
        · simp [fail] at ok
        · rename_i isBoolean
          have known : Known command (.long name) := by simp [Known, isBoolean]
          obtain rfl := Except.ok.inj ok
          rw [extended.long _ _ isBoolean]
          cases inline with
          | none => exact agrees_assign known
          | some value => exact agrees_assign known
        · rename_i isValue
          have known : Known command (.long name) := by simp [Known, isValue]
          rw [extended.long _ _ isValue]
          cases inline with
          | some value =>
              obtain rfl := Except.ok.inj ok
              exact agrees_assign known
          | none =>
              obtain ⟨value, found, rfl⟩ := requireValue_ok ok
              rw [found]
              exact agrees_assign known
  · rename_i isShort
    rw [if_neg isShort]
    exact shortLetters_sound extended ok

/-- A letter of the tables passes the checks in front of them. -/
theorem known_letter {name : Char} (known : Known command (.short name)) :
    name ≠ 'H' ∧ ¬ (name = 'c' ∧ command ≠ .create) := by
  constructor
  · rintro rfl
    cases command <;> exact absurd known (by decide)
  · rintro ⟨rfl, notCreate⟩
    cases command with
    | exec => exact absurd known (by decide)
    | create => exact notCreate rfl

theorem shortLetters_complete (extended : Extends G command) {letters : List Char}
    {set : List (Flag × Arg)} {takesNext : Bool}
    (parsed : cluster G letters args[index + 1]? = .ok (set, takesNext))
    (known : ∀ entry ∈ set, Known command entry.1) :
    shortLetters args index command letters = .ok (width takesNext) := by
  induction letters generalizing set with
  | nil =>
      obtain ⟨rfl, rfl⟩ := Prod.mk.inj (Except.ok.inj parsed)
      rfl
  | cons name rest ih =>
      obtain ⟨value, more, rfl⟩ := cluster_sets parsed
      obtain ⟨here, further⟩ := List.forall_mem_cons.1 known
      obtain ⟨notHost, notContext⟩ := known_letter here
      obtain ⟨arity, isKnown⟩ := Option.isSome_iff_exists.1 here
      have kind := extended.short _ _ isKnown
      rw [shortLetters, if_neg notHost, if_neg notContext, isKnown]
      cases arity with
      | boolean =>
          by_cases inline : rest.head? = some '='
          · rw [cluster_inline kind inline] at parsed
            obtain ⟨-, rfl⟩ := assign_map_ok parsed
            exact if_pos inline
          · rw [cluster_boolean kind inline] at parsed
            dsimp only
            rw [if_neg inline]
            cases assigned : assign G (.short name) "true".toList with
            | error error => rw [assigned] at parsed; simp at parsed
            | ok single =>
                rw [assigned] at parsed
                obtain rfl := assign_set assigned
                cases tail : cluster G rest args[index + 1]? with
                | error error => rw [tail] at parsed; simp [Except.map] at parsed
                | ok result =>
                    rw [tail] at parsed
                    obtain ⟨same, rfl⟩ := Prod.mk.inj (Except.ok.inj parsed)
                    obtain ⟨-, rfl⟩ := List.cons.inj same
                    exact ih tail further
      | value =>
          dsimp only
          by_cases last : rest = []
          · subst last
            rw [if_pos rfl]
            cases found : args[index + 1]? with
            | none => rw [found, cluster_missing kind] at parsed; simp at parsed
            | some next =>
                rw [found, cluster_next kind] at parsed
                obtain ⟨-, rfl⟩ := assign_map_ok parsed
                exact requireValue_some found
          · rw [cluster_rest kind last] at parsed
            obtain ⟨-, rfl⟩ := assign_map_ok parsed
            exact if_neg last

theorem optionTokens_complete (extended : Extends G command) {arg : Arg}
    {set : List (Flag × Arg)} {takesNext : Bool}
    (parsed : option G arg args[index + 1]? = .ok (set, takesNext))
    (known : ∀ entry ∈ set, Known command entry.1) :
    optionTokens args index command arg = .ok (width takesNext) := by
  unfold option at parsed
  unfold optionTokens
  split at parsed
  · rename_i isLong
    rw [if_pos isLong]
    rw [long] at parsed
    cases splits : splitOnce (arg.drop 2) with
    | mk name inline =>
        rw [splits] at parsed
        dsimp only at parsed ⊢
        have isKnown : ∃ arity, longOption name command = some arity := by
          apply Option.isSome_iff_exists.1
          show Known command (.long name)
          split at parsed
          · simp at parsed
          · obtain ⟨rfl, -⟩ := assign_map_ok parsed
            exact known _ List.mem_cons_self
          · obtain ⟨rfl, -⟩ := assign_map_ok parsed
            exact known _ List.mem_cons_self
          · split at parsed
            · simp at parsed
            · obtain ⟨rfl, -⟩ := assign_map_ok parsed
              exact known _ List.mem_cons_self
        obtain ⟨arity, isKnown⟩ := isKnown
        rw [extended.long _ _ isKnown] at parsed
        rw [isKnown]
        cases arity with
        | boolean =>
            cases inline with
            | none =>
                obtain ⟨-, rfl⟩ := assign_map_ok parsed
                rfl
            | some value =>
                obtain ⟨-, rfl⟩ := assign_map_ok parsed
                rfl
        | value =>
            cases inline with
            | some value =>
                obtain ⟨-, rfl⟩ := assign_map_ok parsed
                rfl
            | none =>
                cases found : args[index + 1]? with
                | none => rw [found] at parsed; simp at parsed
                | some next =>
                    rw [found] at parsed
                    obtain ⟨-, rfl⟩ := assign_map_ok parsed
                    exact requireValue_some found
  · rename_i isShort
    rw [if_neg isShort]
    exact shortLetters_complete extended parsed known

end Step

/-! ## Side by side -/

section Loop

variable {G : Grammar} {command : CommandKind} {args : List Arg}

theorem stops_iff (arg : Arg) :
    stops arg = true ↔ arg = "--".toList ∨ arg = "-".toList ∨ arg.head? ≠ some '-' := by
  simp [stops, or_assoc]

theorem optionsLoop_sound (extended : Extends G command) {fuel index : Nat} {taken : List Nat}
    {stop : Nat} (ok : optionsLoop args command fuel index = .ok (taken, stop)) :
    (∃ error, parse G (args.drop index) = .error error) ∨
      ∃ parsed, parse G (args.drop index) = .ok parsed ∧ parsed.taken = taken ∧
        parsed.operands = args.drop stop ∧ ∀ entry ∈ parsed.set, Known command entry.1 := by
  induction fuel generalizing index taken with
  | zero => simp [optionsLoop] at ok
  | succ fuel ih =>
      rw [optionsLoop] at ok
      split at ok
      · rename_i ended
        obtain ⟨rfl, rfl⟩ := Prod.mk.inj (Except.ok.inj ok)
        have nothing : args.drop index = [] := List.drop_eq_nil_of_le (List.getElem?_eq_none_iff.1 ended)
        rw [nothing, parse_nil]
        exact .inr ⟨_, rfl, rfl, rfl, by simp⟩
      · rename_i arg found
        obtain ⟨inside, isArg⟩ := List.getElem?_eq_some_iff.1 found
        have here : args.drop index = arg :: args.drop (index + 1) := by
          rw [List.drop_eq_getElem_cons inside, isArg]
        split at ok
        · rename_i stop'
          obtain ⟨rfl, rfl⟩ := Prod.mk.inj (Except.ok.inj ok)
          rw [here, parse_stop ((stops_iff arg).2 stop')]
          exact .inr ⟨_, rfl, rfl, rfl, by simp⟩
        · rename_i going
          have going : stops arg = false := by
            rw [← Bool.not_eq_true, stops_iff]
            exact going
          have next : (args.drop (index + 1)).head? = args[index + 1]? := List.head?_drop
          split at ok
          · simp at ok
          · rename_i consumed tokens
            obtain ⟨⟨rest, stop'⟩, further, shape⟩ := map_eq_ok ok
            obtain ⟨rfl, rfl⟩ := Prod.mk.inj shape
            rw [here]
            rcases optionTokens_sound extended tokens with
              ⟨error, failed⟩ | ⟨set, takesNext, parsed, rfl, known⟩
            · exact .inl ⟨error, parse_error going (by rw [next, failed])⟩
            · have positive := width_pos takesNext
              rw [parse_step going (by rw [next, parsed]), List.drop_drop,
                show index + 1 + (width takesNext - 1) = index + width takesNext by omega]
              rcases ih further with ⟨error, failed⟩ | ⟨more, parsedMore, rfl, operands, knownMore⟩
              · exact .inl ⟨error, by rw [failed]; rfl⟩
              · refine .inr ⟨more.behind set takesNext, by rw [parsedMore]; rfl, rfl, operands, ?_⟩
                intro entry member
                rcases List.mem_append.1 member with old | new
                · exact known entry old
                · exact knownMore entry new

theorem optionsLoop_complete (extended : Extends G command) {fuel index : Nat} {parsed : Parsed}
    (ok : parse G (args.drop index) = .ok parsed)
    (known : ∀ entry ∈ parsed.set, Known command entry.1) (positive : 0 < fuel)
    (enough : args.length < index + fuel) :
    ∃ stop, optionsLoop args command fuel index = .ok (parsed.taken, stop) := by
  induction fuel generalizing index parsed with
  | zero => exact absurd positive (Nat.lt_irrefl 0)
  | succ fuel ih =>
      rw [optionsLoop]
      cases found : args[index]? with
      | none =>
          have nothing : args.drop index = [] :=
            List.drop_eq_nil_of_le (List.getElem?_eq_none_iff.1 found)
          rw [nothing, parse_nil] at ok
          obtain rfl := Except.ok.inj ok
          exact ⟨index, rfl⟩
      | some arg =>
          obtain ⟨inside, isArg⟩ := List.getElem?_eq_some_iff.1 found
          have here : args.drop index = arg :: args.drop (index + 1) := by
            rw [List.drop_eq_getElem_cons inside, isArg]
          have next : (args.drop (index + 1)).head? = args[index + 1]? := List.head?_drop
          rw [here] at ok
          dsimp only
          by_cases stop : stops arg = true
          · rw [parse_stop stop] at ok
            obtain rfl := Except.ok.inj ok
            rw [if_pos ((stops_iff arg).1 stop)]
            exact ⟨index, rfl⟩
          · rw [if_neg fun ends => stop ((stops_iff arg).2 ends)]
            have going : stops arg = false := by simpa using stop
            cases step : option G arg args[index + 1]? with
            | error error =>
                rw [parse_error going (by rw [next, step])] at ok
                simp at ok
            | ok result =>
                obtain ⟨set, takesNext⟩ := result
                have width' := width_pos takesNext
                rw [parse_step going (by rw [next, step]), List.drop_drop,
                  show index + 1 + (width takesNext - 1) = index + width takesNext by omega] at ok
                cases rest : parse G (args.drop (index + width takesNext)) with
                | error error => rw [rest] at ok; simp [Except.map] at ok
                | ok more =>
                    rw [rest] at ok
                    obtain rfl := Except.ok.inj ok
                    have tokens := optionTokens_complete extended step
                      fun entry member => known entry (List.mem_append_left _ member)
                    obtain ⟨stop', further⟩ := ih rest
                      (fun entry member => known entry (List.mem_append_right _ member))
                      (by omega) (by omega)
                    rw [tokens]
                    exact ⟨stop', by simp only [further]; rfl⟩

end Loop

/-- `args` runs `command`, plain or under `container`, with these arguments behind it. -/
def Workload (args : List Arg) (command : CommandKind) (options : List Arg) : Prop :=
  ∃ name, (args = name :: options ∨ args = "container".toList :: name :: options) ∧
    match command with
    | .exec => name = "exec".toList
    | .create => name = "run".toList ∨ name = "create".toList

/-- For a workload, `validate` is the check for target overrides and the option loop. -/
theorem validate_workload {args options : List Arg} {command : CommandKind}
    (workload : Workload args command options) :
    validate args =
      if ∃ arg ∈ args, TargetOverride arg then
        fail "Docker endpoint or configuration overrides are not allowed in the luhmen wrapper"
      else validateContainerOptions options command := by
  obtain ⟨name, shape, named⟩ := workload
  have run : validateCommand name options = validateContainerOptions options command ∧
      name ≠ [] ∧ name.head? ≠ some '-' ∧ name ≠ "context".toList ∧ name ≠ "container".toList := by
    cases command with
    | exec =>
        subst named
        exact ⟨rfl, by decide, by decide, by decide, by decide⟩
    | create =>
        rcases named with rfl | rfl
        · exact ⟨rfl, by decide, by decide, by decide, by decide⟩
        · exact ⟨rfl, by decide, by decide, by decide, by decide⟩
  obtain ⟨same, nonempty, noDash, notContext, notContainer⟩ := run
  rcases shape with rfl | rfl
  · have allowed : ¬ (name = [] ∨ name.head? = some '-' ∨ name = "context".toList) :=
      not_or.2 ⟨nonempty, not_or.2 ⟨noDash, notContext⟩⟩
    unfold validate
    dsimp only
    rw [if_neg allowed, if_neg notContainer, same]
  · have allowed : ¬ ("container".toList = [] ∨ "container".toList.head? = some '-' ∨
        "container".toList = "context".toList) := by decide
    unfold validate
    dsimp only
    rw [if_neg allowed, if_pos rfl, if_neg noDash, same]

/-- **No option past the check.**  Where a workload command is let through, the CLI stops where
the check did, with the same values taken, and sets no option that changes the target; and every
command line of known options that sets none of those is let through. -/
theorem validate_agrees {G : Grammar} {command : CommandKind} {args options : List Arg}
    (extended : Extends G command) (workload : Workload args command options) :
    (validate args = .ok () →
      (∃ error, parse G options = .error error) ∨
      ∃ parsed stop, parse G options = .ok parsed ∧
        optionsLoop options command (options.length + 1) 0 = .ok (parsed.taken, stop) ∧
        parsed.operands = options.drop stop ∧
        ∀ entry ∈ parsed.set, ¬ Overrides command entry.1) ∧
    (∀ parsed, parse G options = .ok parsed → (∀ entry ∈ parsed.set, Known command entry.1) →
      (∀ entry ∈ parsed.set, ¬ Overrides command entry.1) →
      (∀ arg ∈ args, ¬ TargetOverride arg) → validate args = .ok ()) := by
  rw [validate_workload workload]
  constructor
  · intro ok
    split at ok
    · simp [fail] at ok
    · obtain ⟨⟨taken, stop⟩, loop, -⟩ := map_eq_ok ok
      have sound := optionsLoop_sound extended loop
      rw [List.drop_zero] at sound
      rcases sound with failed | ⟨parsed, ok, rfl, operands, known⟩
      · exact .inl failed
      · exact .inr ⟨parsed, stop, ok, loop, operands,
          fun entry member => known_not_overrides (known entry member)⟩
  · intro parsed ok known _ noOverride
    rw [if_neg (by simpa using noOverride)]
    obtain ⟨stop, loop⟩ := @optionsLoop_complete G command options extended (options.length + 1) 0
      parsed ok known (Nat.succ_pos _) (by omega)
    rw [validateContainerOptions, loop]
    rfl

/-- The grammar that knows the tables' options and no others. -/
def tables (command : CommandKind) : Grammar where
  long := fun name => longOption name command
  short := shortArity command
  admits := fun _ _ => true

/-- `-it=false -e A=--host box -c`: two option arguments, of one and two tokens, and
`-c` is the container's. -/
theorem parse_exec_cluster :
    parse (tables .exec) (["-it=false", "-e", "A=--host", "box", "-c"].map String.toList) =
      .ok ⟨[(.short 'i', "true".toList), (.short 't', "false".toList),
        (.short 'e', "A=--host".toList)], [1, 2], ["box", "-c"].map String.toList⟩ := by
  have cluster : option (tables .exec) "-it=false".toList (some "-e".toList) =
      .ok ([(.short 'i', "true".toList), (.short 't', "false".toList)], false) := by rfl
  have value : option (tables .exec) "-e".toList (some "A=--host".toList) =
      .ok ([(.short 'e', "A=--host".toList)], true) := by rfl
  have first := @parse_step (tables .exec) _ (["-e", "A=--host", "box", "-c"].map String.toList) _ _
    (by decide) cluster
  have second := @parse_step (tables .exec) _ (["A=--host", "box", "-c"].map String.toList) _ _
    (by decide) value
  have third : parse (tables .exec) (["box", "-c"].map String.toList) =
      .ok ⟨[], [], ["box", "-c"].map String.toList⟩ := parse_stop (by decide)
  exact first.trans (congrArg (Except.map _) (second.trans (congrArg (Except.map _) third)))

theorem validate_agrees_exec :
    validate ("exec".toList :: ["-it=false", "-e", "A=--host", "box", "-c"].map String.toList) =
      .ok () := by
  have known : ∀ entry ∈ [(Flag.short 'i', "true".toList), (Flag.short 't', "false".toList),
      (Flag.short 'e', "A=--host".toList)], Known .exec entry.1 := by decide
  exact (validate_agrees ⟨fun _ _ found => found, fun _ _ found => found⟩
    ⟨"exec".toList, .inl rfl, rfl⟩).2 _ parse_exec_cluster known
    (fun entry member => known_not_overrides (known entry member)) (by decide)

end Luhmen.Host
