/-
# Runs of the command line

A run selects a command, reads its flags, checks its arguments, loads the settings and then runs the
command; whatever fails first ends it.  Of all commands only a bump changes manifests and repositories,
so a run that changed one was a bump that neither an argument nor a setting had turned into something
else, and it was confirmed.  A shell's request for completions may change one file, which its
environment names: there it is noted if the request fails.

Main statements: a run is the bump that was asked for, notes a failed request or leaves the world alone
(`run_of_bumpCalled`, `run_of_completionFailed`, `run_of_neither`), so it changes nothing else without a
confirmation (`run_changes_only_confirmed`), and an invalid argument is refused alike in every world
(`run_of_invalid_argument`).
-/
import CrateBump.Cli.Run
import CrateBump.Proofs.BumpRun
import CrateBump.Proofs.FirstLine

namespace CrateBump

/-! ## What a bump prints and takes -/

section Bump

variable {host : Host} {ws : Workspace} {prompter : Prompter} {options : BumpOptions} {kind : Kind}
  {w : World}

theorem out_prefix_releaseStage (host : Host) (ws : Workspace) (options : BumpOptions)
    (before : BumpOutcome) : before.out <+: (releaseStage host ws options before).out := by
  unfold releaseStage
  split
  · dsimp only
    split
    · exact List.prefix_refl _
    · exact List.prefix_append _ _
  · exact List.prefix_refl _

theorem out_prefix_writeStage (host : Host) (ws : Workspace) (options : BumpOptions)
    (before : BumpOutcome) : before.out <+: (writeStage host ws options before).out := by
  unfold writeStage
  dsimp only
  split
  · exact List.prefix_refl _
  · refine List.IsPrefix.trans ?_ (out_prefix_releaseStage host ws options _)
    exact List.prefix_append _ _

/-- Where a question was asked, it stands on the output behind the preview. -/
theorem bump_out_of_asked (h : (bump host ws prompter options kind w).asked ≠ []) :
    ∃ changes, plan ws w.files kind = .ok changes ∧ options.dryRun = false
      ∧ preview host.env changes ++ (prompter (question host.env) w).out
        <+: (bump host ws prompter options kind w).out := by
  rcases bump_asked host ws prompter options kind w with ⟨hno, -⟩ | ⟨-, changes, hplan, hdry, hcheck⟩
  · exact absurd hno h
  refine ⟨changes, hplan, hdry, ?_⟩
  unfold bump confirmStage
  dsimp only
  rw [hplan]
  dsimp only
  rw [if_neg (by simp [hdry]), hcheck]
  dsimp only
  split
  · exact List.prefix_refl _
  · exact List.prefix_append _ _
  · refine List.IsPrefix.trans ?_ (out_prefix_writeStage host ws options _)
    exact List.prefix_refl _

/-- Only the prompter takes from the input, and only if it is asked. -/
theorem bump_input (host : Host) (ws : Workspace) (prompter : Prompter) (options : BumpOptions)
    (kind : Kind) (w : World) :
    (bump host ws prompter options kind w).world.input
      = if (bump host ws prompter options kind w).asked = [] then w.input
        else (prompter (question host.env) w).world.input := by
  have hends := bumpEnds_bump host ws prompter options kind w
  generalize bump host ws prompter options kind w = o at hends ⊢
  cases hends with
  | unplanned hplan => rfl
  | dryRun hplan hdry out => rfl
  | unclean hplan hdry hcheck => rfl
  | failed hplan hdry hcheck hreply => rfl
  | declined hplan hdry hcheck hreply out => rfl
  | written hplan hdry hcheck hreply =>
    rw [(writeStage_fields host ws options _).2.1, writeStage_input]
    rfl

end Bump

namespace Cli

/-! ## Arguments -/

/-- The arguments select a command, and its flags can be read. -/
def Reads (args : List Text) (c : Command) (p : Parsed) : Prop :=
  ∃ rest, select args = .ok (c, rest) ∧ readArgs c rest = .ok p

theorem ne_nil_of_reads {args : List Text} {c : Command} {p : Parsed} (hc : c ≠ .root)
    (h : Reads args c p) : args ≠ [] := by
  rintro rfl
  obtain ⟨rest, hselect, -⟩ := h
  have hroot : select [] = .ok (.root, []) := rfl
  rw [hroot] at hselect
  exact hc (Prod.mk.inj (Except.ok.inj hselect)).1.symm

theorem run_of_reads {args : List Text} {c : Command} {p : Parsed} (hc : c ≠ .root)
    (h : Reads args c p) (host : Host) (w : World) : run host args w = runParsed host c p w := by
  have hne := ne_nil_of_reads hc h
  obtain ⟨rest, hselect, hread⟩ := h
  unfold run
  rw [if_neg (by simpa using hne), hselect]
  dsimp only
  rw [hread]

/-- Arguments select one command. -/
theorem command_of_reads {args : List Text} {c c' : Command} {p p' : Parsed} (h : Reads args c p)
    (h' : Reads args c' p') : c' = c := by
  obtain ⟨rest, hselect, -⟩ := h
  obtain ⟨rest', hselect', -⟩ := h'
  rw [hselect] at hselect'
  exact (Prod.mk.inj (Except.ok.inj hselect')).1.symm

/-- At most one argument, and a kind. -/
def IsKindArgs (args : List Text) : Prop :=
  args = [] ∨ ∃ word kind, args = [word] ∧ Kind.ofWord? word = some kind

/-- Why arguments of a bump are refused, if they are. -/
def argsError : List Text → CliError
  | [word] => .kind word
  | args => .tooManyArgs args.length

/-- The check of a bump's arguments looks for a kind and for nothing else. -/
theorem checkArgs_bump (args : List Text) :
    checkArgs .bump args
      = match args with
        | [] => .ok ()
        | [word] => if Kind.ofWord? word = none then .error (argsError args) else .ok ()
        | args => .error (argsError args) := by
  match args with
  | [] => rfl
  | [word] => cases hword : Kind.ofWord? word <;> simp [checkArgs, argsError, hword]
  | first :: second :: rest => rfl

theorem checkArgs_of_kindArgs {args : List Text} (h : IsKindArgs args) :
    checkArgs .bump args = .ok () := by
  rcases h with rfl | ⟨word, kind, rfl, hword⟩
  · rfl
  · rw [checkArgs_bump]
    simp [hword]

theorem checkArgs_of_invalid {args : List Text}
    (h : 1 < args.length ∨ ∃ word, args = [word] ∧ Kind.ofWord? word = none) :
    checkArgs .bump args = .error (argsError args) := by
  rcases h with hlength | ⟨word, rfl, hword⟩
  · match args with
    | first :: second :: rest => rfl
  · rw [checkArgs_bump]
    simp [hword]

theorem kindArgs_of_checkArgs {args : List Text} (h : checkArgs .bump args = .ok ()) :
    IsKindArgs args := by
  match args with
  | [] => exact .inl rfl
  | [word] =>
    cases hword : Kind.ofWord? word with
    | none =>
      rw [checkArgs_of_invalid (.inr ⟨word, rfl, hword⟩)] at h
      cases h
    | some kind => exact .inr ⟨word, kind, rfl, hword⟩
  | first :: second :: rest => cases h

/-! ## Runs that bump -/

/-- The arguments ask for a bump and for nothing else, and the settings can be loaded. -/
structure BumpCalled (host : Host) (args : List Text) (w : World) (p : Parsed) (s : Settings) :
    Prop where
  reads : Reads args .bump p
  noHelp : p.isOn (ascii "help") = false
  noReport : p.isOn (ascii "current") = false
  kind : IsKindArgs p.args
  loaded : Config.load host.readers w.files (configFile p) (sourcesOf host.env .bump p) = .ok s

/-- The bump that parsed arguments and settings ask for. -/
def bumpOf (host : Host) (p : Parsed) (s : Settings) (w : World) : BumpOutcome :=
  bump host (workspaceOf s) (if s.yes then .static true else .line) ⟨s.dryRun, s.commit, s.tag⟩
    (kindOf p.args) w

theorem finish_world (logger : Log.Logger) (p : Printed) : (finish logger p).world = p.world := by
  unfold finish
  split <;> rfl

theorem finish_stdout (logger : Log.Logger) (p : Printed) : (finish logger p).stdout = p.out := by
  unfold finish
  split <;> rfl

/-- A bump that is called runs. -/
theorem run_of_bumpCalled {host : Host} {args : List Text} {w : World} {p : Parsed} {s : Settings}
    (h : BumpCalled host args w p s) :
    (run host args w).world = (bumpOf host p s w).world
      ∧ (run host args w).stdout = (bumpOf host p s w).out := by
  rw [run_of_reads (by decide) h.reads, runParsed, if_neg (by simp [h.noHelp, Command.isRunnable]),
    checkArgs_of_kindArgs h.kind, loadSettings, h.loaded]
  dsimp only
  rw [finish_world, finish_stdout, runCommand, if_neg (by simp [h.noReport]), runBump]
  -- a verbose log is no part of what a bump looks at
  split
  · exact ⟨rfl, rfl⟩
  · exact ⟨rfl, rfl⟩

/-! ## Runs that note a failure -/

/-- The arguments are a shell's request for completions, the settings can be loaded, and the request
fails. -/
def CompletionFailed (host : Host) (args : List Text) (w : World) (reason : Text) : Prop :=
  ∃ descriptions p s, Reads args (.complete descriptions) p ∧ p.args ≠ []
    ∧ Config.load host.readers w.files (configFile p)
      (sourcesOf host.env (.complete descriptions) p) = .ok s
    ∧ (completionOf host descriptions p.args).error? = some reason

/-- A request for completions reads no flags. -/
theorem values_of_reads_complete {args : List Text} {descriptions : Bool} {p : Parsed}
    (h : Reads args (.complete descriptions) p) : p.values = [] := by
  obtain ⟨rest, -, hread⟩ := h
  rw [← Except.ok.inj hread]

/-- A request that fails is noted, and nothing else happens to the world. -/
theorem run_of_completionFailed {host : Host} {args : List Text} {w : World} {reason : Text}
    (h : CompletionFailed host args w reason) :
    (run host args w).world = noted host.env reason w := by
  obtain ⟨descriptions, p, s, hreads, hargs, hloaded, hfailed⟩ := h
  have hhelp : p.isOn (ascii "help") = false := by
    rw [Parsed.isOn, Parsed.value?, values_of_reads_complete hreads]
    rfl
  have hchecked : checkArgs (.complete descriptions) p.args = .ok () := by
    cases hasked : p.args with
    | nil => exact absurd hasked hargs
    | cons word rest => rfl
  rw [run_of_reads Command.noConfusion hreads, runParsed, if_neg (by simp [hhelp, Command.isRunnable]),
    hchecked, loadSettings, hloaded]
  dsimp only
  rw [finish_world, runCommand, runComplete, hfailed]

/-- Every other run leaves the world alone. -/
theorem run_of_neither {host : Host} {args : List Text} {w : World}
    (hbump : ∀ p s, ¬ BumpCalled host args w p s)
    (hcompletion : ∀ reason, ¬ CompletionFailed host args w reason) : (run host args w).world = w := by
  unfold run
  split
  · rfl
  split
  · rfl
  next c rest hselect =>
  split
  · rfl
  next p hread =>
  unfold runParsed
  split
  · rfl
  next hhelp =>
  split
  · rfl
  next hargs =>
  split
  · rfl
  next s hload =>
  dsimp only
  rw [finish_world]
  unfold loadSettings at hload
  split at hload
  · cases hload
  next settings hloaded =>
  cases c with
  | root => rfl
  | current => rfl
  | version => rfl
  | help => rfl
  | completion => rfl
  | shell shell => rfl
  | complete descriptions =>
    rw [runCommand, runComplete]
    dsimp only
    split
    · rfl
    · next reason hreason =>
      refine absurd ?_ (hcompletion reason)
      refine ⟨descriptions, p, settings, ⟨rest, hselect, hread⟩, ?_, hloaded, hreason⟩
      rintro hnone
      rw [hnone] at hargs
      cases hargs
  | bump =>
    by_cases hcurrent : p.isOn (ascii "current") = true
    · rw [runCommand, if_pos hcurrent]
      rfl
    · refine absurd ?_ (hbump p settings)
      have hnoHelp : p.isOn (ascii "help") = false := by
        simpa [Command.isRunnable] using hhelp
      exact ⟨⟨rest, hselect, hread⟩, hnoHelp, by simpa using hcurrent, kindArgs_of_checkArgs hargs,
        hloaded⟩

/-- Where a request was noted, it is in the file that the environment names. -/
theorem appends_noted {env : Environment} {reason : Text} {w : World}
    (h : (noted env reason w).files ≠ w.files) :
    debugFile env ≠ []
      ∧ FileSystem.Appends w.files (debugFile env) (debugNote reason) (noted env reason w).files := by
  by_cases hfile : debugFile env = []
  · rw [noted, if_pos hfile] at h
    exact absurd rfl h
  · refine ⟨hfile, ?_⟩
    rw [noted, if_neg hfile]
    exact FileSystem.appends_appendFile _ _ _

theorem repositories_noted (env : Environment) (reason : Text) (w : World) :
    (noted env reason w).repositories = w.repositories := by
  unfold noted
  split <;> rfl

theorem input_noted (env : Environment) (reason : Text) (w : World) :
    (noted env reason w).input = w.input := by
  unfold noted
  split <;> rfl

/-! ## Confirmation -/

/-- The prompters of the command line answer without touching files. -/
theorem keepsFiles_prompter (yes : Bool) :
    Prompter.KeepsFiles (if yes then .static true else .line) := by
  cases yes with
  | false => exact Prompter.keepsFiles_line
  | true => exact Prompter.keepsFiles_static true

theorem keepsRepositories_prompter (yes : Bool) :
    Prompter.KeepsRepositories (if yes then .static true else .line) := by
  cases yes with
  | false => exact Prompter.keepsRepositories_line
  | true => exact fun _ _ => rfl

/-- A line that was read accepts only by its first answer. -/
theorem accepts_of_line {question : Text} {w : World}
    (h : (Prompter.line question w).decision = .ok true) :
    accepts (firstAnswer w.input.remaining) = true := by
  have hdecision : (answerLine w.input).decision = .ok true := h
  rw [answerLine_decision] at hdecision
  split at hdecision
  · exact Except.ok.inj hdecision
  · cases hdecision

section Called

variable {host : Host} {p : Parsed} {s : Settings} {w : World}

/-- A bump of the command line is confirmed by the settings or by the first line of the input. -/
theorem accepted_of_confirmed (h : (bumpOf host p s w).confirmed = true) :
    s.dryRun = false ∧ (s.yes = true ∨ accepts (firstAnswer w.input.remaining) = true) := by
  obtain ⟨hasked, hreply⟩ := (bump_confirmed_iff _ _ _ _ _ _).1 h
  obtain ⟨changes, -, hdry, -⟩ := bump_out_of_asked hasked
  refine ⟨hdry, ?_⟩
  cases hyes : s.yes with
  | true => exact .inl rfl
  | false =>
    rw [hyes] at hreply
    exact .inr (accepts_of_line hreply)

theorem confirmed_of_changed (h : (bumpOf host p s w).world.files ≠ w.files
    ∨ (bumpOf host p s w).world.repositories ≠ w.repositories) :
    (bumpOf host p s w).confirmed = true := by
  by_contra hunconfirmed
  rw [Bool.not_eq_true] at hunconfirmed
  rcases h with hfiles | hrepositories
  · exact hfiles (bump_keeps_of_unconfirmed (keepsFiles_prompter s.yes) hunconfirmed)
  · exact hrepositories (bump_keeps_of_unconfirmed (keepsRepositories_prompter s.yes) hunconfirmed)

/-- Only a bump that asks takes from the input. -/
theorem asked_of_taken (h : (bumpOf host p s w).world.input ≠ w.input) :
    s.yes = false ∧ (bumpOf host p s w).asked ≠ [] := by
  have hinput : (bumpOf host p s w).world.input = if (bumpOf host p s w).asked = [] then w.input
      else ((if s.yes then .static true else .line : Prompter) (question host.env) w).world.input :=
    bump_input _ _ _ _ _ _
  by_cases hasked : (bumpOf host p s w).asked = []
  · rw [hinput, if_pos hasked] at h
    exact absurd rfl h
  refine ⟨?_, hasked⟩
  cases hyes : s.yes with
  | false => rfl
  | true =>
    -- a prompter that accepts in advance reads nothing
    rw [hinput, if_neg hasked, hyes] at h
    exact absurd rfl h

end Called

/-- **The command line changes manifests and repositories only on a confirmed bump.**  If a run changes
a file or a repository, its arguments select a bump, at most one argument is left and it is a kind,
neither a report nor help is asked for, the settings can be loaded, they ask for no dry run, and they
accept in advance or the first line of the input accepts; or its arguments are a shell's request for
completions that fails, and no more happens than that this is noted behind what the file holds that the
environment names for it.  Nothing is taken from the input unless such a bump has a plan and has just
printed its preview and its question.  A run that calls a bump is that bump, one whose request fails
notes it, and every other run leaves the world alone. -/
theorem run_changes_only_confirmed (host : Host) (args : List Text) (w : World) :
    let o := run host args w
    (o.world.files ≠ w.files ∨ o.world.repositories ≠ w.repositories →
      (∃ p s, BumpCalled host args w p s ∧ s.dryRun = false
        ∧ (s.yes = true ∨ accepts (firstAnswer w.input.remaining) = true))
      ∨ ∃ reason, CompletionFailed host args w reason ∧ debugFile host.env ≠ []
        ∧ FileSystem.Appends w.files (debugFile host.env) (debugNote reason) o.world.files
        ∧ o.world.repositories = w.repositories)
    ∧ (o.world.input ≠ w.input →
      ∃ p s, BumpCalled host args w p s ∧ s.dryRun = false ∧ s.yes = false
        ∧ ∃ changes, plan (workspaceOf s) w.files (kindOf p.args) = .ok changes
          ∧ preview host.env changes ++ (question host.env ++ [lineFeed]) <+: o.stdout)
    ∧ (∀ p s, BumpCalled host args w p s →
        o.world = (bumpOf host p s w).world ∧ o.stdout = (bumpOf host p s w).out)
    ∧ (∀ reason, CompletionFailed host args w reason → o.world = noted host.env reason w)
    ∧ ((∀ p s, ¬ BumpCalled host args w p s) → (∀ reason, ¬ CompletionFailed host args w reason) →
        o.world = w) := by
  intro o
  -- a run that leaves anything else than the world it was given calls a bump or notes a failure
  have hcalled : o.world ≠ w → (∃ p s, BumpCalled host args w p s)
      ∨ ∃ reason, CompletionFailed host args w reason := by
    intro hne
    by_contra hnone
    push Not at hnone
    exact hne (run_of_neither hnone.1 hnone.2)
  refine ⟨fun hchanged => ?_, fun htaken => ?_, fun p s => run_of_bumpCalled,
    fun reason => run_of_completionFailed, run_of_neither⟩
  · rcases hcalled fun heq => by rw [heq] at hchanged; simp at hchanged with
      ⟨p, s, h⟩ | ⟨reason, h⟩
    · rw [show o.world = _ from (run_of_bumpCalled h).1] at hchanged
      exact .inl ⟨p, s, h, accepted_of_confirmed (confirmed_of_changed hchanged)⟩
    · rw [show o.world = _ from run_of_completionFailed h] at hchanged ⊢
      rw [repositories_noted] at hchanged ⊢
      obtain ⟨hfile, happends⟩ := appends_noted (hchanged.resolve_right fun hne => hne rfl)
      exact .inr ⟨reason, h, hfile, happends, rfl⟩
  · rcases hcalled fun heq => htaken (by rw [heq]) with ⟨p, s, h⟩ | ⟨reason, h⟩
    · rw [show o.world = _ from (run_of_bumpCalled h).1] at htaken
      obtain ⟨hyes, hasked⟩ := asked_of_taken htaken
      obtain ⟨changes, hplan, hdry, hout⟩ := bump_out_of_asked hasked
      refine ⟨p, s, h, hdry, hyes, changes, hplan, ?_⟩
      have hquestion : ((if s.yes then .static true else .line : Prompter) (question host.env) w).out
          = question host.env ++ [lineFeed] := by
        rw [hyes]
        rfl
      rw [hquestion] at hout
      rw [show o.stdout = _ from (run_of_bumpCalled h).2]
      exact hout
    · rw [show o.world = _ from run_of_completionFailed h, input_noted] at htaken
      exact absurd rfl htaken

/-- A minor bump of the sample files, in the other case and with a switch on either side. -/
def minorArgs : List Text := ["--root=.", "bump", "MINOR", "--verbose"].map ascii

/-- Someone who answers in capitals and goes on behind the line. -/
def answeredWorld : World := sampleWorld (ascii "YES\r\nno\n")

/-- The run that is answered changes a file and takes a line, so it was called and confirmed. -/
theorem run_changes_only_confirmed_line :
    let o := run sampleHost minorArgs answeredWorld
    o.world.files ≠ answeredWorld.files ∧ o.world.input ≠ answeredWorld.input
      ∧ (∃ p s, BumpCalled sampleHost minorArgs answeredWorld p s ∧ s.dryRun = false
        ∧ (s.yes = true ∨ accepts (firstAnswer answeredWorld.input.remaining) = true))
      ∧ ∃ p s, BumpCalled sampleHost minorArgs answeredWorld p s ∧ s.dryRun = false ∧ s.yes = false
        ∧ ∃ changes, plan (workspaceOf s) answeredWorld.files (kindOf p.args) = .ok changes
          ∧ preview sampleHost.env changes ++ (question sampleHost.env ++ [lineFeed])
            <+: o.stdout := by
  have hchanged : (run sampleHost minorArgs answeredWorld).world.files ≠ answeredWorld.files
      ∧ (run sampleHost minorArgs answeredWorld).world.input.remaining
        ≠ answeredWorld.input.remaining := by
    decide +kernel
  obtain ⟨hfiles, hremaining⟩ := hchanged
  have htaken : (run sampleHost minorArgs answeredWorld).world.input ≠ answeredWorld.input :=
    fun h => hremaining (by rw [h])
  obtain ⟨hconfirmed, hasked, -⟩ := run_changes_only_confirmed sampleHost minorArgs answeredWorld
  refine ⟨hfiles, htaken, ?_, hasked htaken⟩
  rcases hconfirmed (.inl hfiles) with h | ⟨reason, ⟨descriptions, p, s, hreads, -⟩, -⟩
  · exact h
  · -- the arguments select a bump
    obtain ⟨p', s', h, -⟩ := hasked htaken
    cases command_of_reads h.reads hreads

/-- A shell asks what could follow a word that is no command. -/
def unknownRequest : List Text := ["__complete", "nosuch", ""].map ascii

/-- Failed requests for completions are noted. -/
def notingHost : Host :=
  { sampleHost with env := [(ascii "BASH_COMP_DEBUG_FILE", ascii "completions.log")] }

/-- A run may make a file without any bump being called: one that the environment names, where a failed
request for completions is noted. -/
theorem run_notes_failed_completion :
    let w := sampleWorld []
    let o := run notingHost unknownRequest w
    (∀ p s, ¬ BumpCalled notingHost unknownRequest w p s) ∧ o.world.files ≠ w.files ∧ o.code = 0
      ∧ w.files.readFile (ascii "completions.log")
        = .error ⟨.opens, ascii "completions.log", .notFound⟩
      ∧ o.world.files.readFile (ascii "completions.log")
        = .ok (line (ascii "[Debug] [Error] unable to find a command for arguments: [nosuch]")) := by
  have hselect : select unknownRequest = .ok (.complete true, ["nosuch", ""].map ascii) := by
    decide +kernel
  refine ⟨fun p s h => ?_, by decide +kernel, by decide +kernel, by decide +kernel, by decide +kernel⟩
  cases command_of_reads ⟨_, hselect, rfl⟩ h.reads

/-! ## Invalid arguments -/

/-- **An invalid argument of a bump is refused before anything is looked at.**  If the flags can be
read and no help is asked for, but there is more than one argument, or one that is no kind, then the
run fails with the same message on every host and in every world, and leaves the world, its input
included, alone. -/
theorem run_of_invalid_argument {args : List Text} {p : Parsed} (hreads : Reads args .bump p)
    (hhelp : p.isOn (ascii "help") = false)
    (hargs : 1 < p.args.length ∨ ∃ word, p.args = [word] ∧ Kind.ofWord? word = none) :
    ∃ stderr, stderr = ascii "Error: " ++ (argsError p.args).message ++ [lineFeed]
      ∧ ∀ host w, run host args w = ⟨1, [], stderr, w, none⟩ := by
  refine ⟨_, rfl, fun host w => ?_⟩
  rw [run_of_reads (by decide) hreads, runParsed, if_neg (by simp [hhelp, Command.isRunnable]),
    checkArgs_of_invalid hargs]
  rfl

/-- A bump by a word that is no kind, with a configuration file that need not be there. -/
def buildArgs : List Text := ["--config=missing.toml", "bump", "--yes", "build"].map ascii

/-- The word is refused wherever the run takes place, and the configuration file is not missed. -/
theorem run_of_invalid_argument_build :
    ∃ p, Reads buildArgs .bump p ∧ p.isOn (ascii "help") = false
      ∧ (1 < p.args.length ∨ ∃ word, p.args = [word] ∧ Kind.ofWord? word = none)
      ∧ ∀ host w, run host buildArgs w = ⟨1, [],
        line (ascii "Error: invalid version type: \"build\" (expected major, minor or patch)"), w,
        none⟩ := by
  have hreads : Reads buildArgs .bump
      ⟨[ascii "build"], [(ascii "config", ascii "missing.toml"), (ascii "yes", ascii "true")]⟩ :=
    ⟨["--config=missing.toml", "--yes", "build"].map ascii, by decide +kernel, by decide +kernel⟩
  have hword : Kind.ofWord? (ascii "build") = none := by decide
  have hargs : 1 < [ascii "build"].length
      ∨ ∃ word, [ascii "build"] = [word] ∧ Kind.ofWord? word = none := .inr ⟨_, rfl, hword⟩
  have hmessage : ascii "Error: " ++ (argsError [ascii "build"]).message ++ [lineFeed]
      = line (ascii "Error: invalid version type: \"build\" (expected major, minor or patch)") := by
    decide +kernel
  obtain ⟨stderr, hstderr, hrun⟩ := run_of_invalid_argument hreads (by decide +kernel) hargs
  refine ⟨_, hreads, by decide +kernel, hargs, fun host w => ?_⟩
  rw [hrun, hstderr, hmessage]

end Cli

end CrateBump
