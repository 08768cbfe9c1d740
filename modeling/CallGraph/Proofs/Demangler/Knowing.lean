import CallGraph.Command.Session
import CallGraph.Proofs.Graph.Guarding

/-!
# What a demangler knows and runs

A batch runs each tool at most once, in order, on all of its symbols, and whatever comes of it, an
answer is kept for every symbol. A symbol with an answer is never asked about again, and neither is
one of another convention, so that a demangler which knows the symbols it is given stays as it is.
-/

namespace CallGraph

namespace Answers

theorem lookup_cons (known : String) (text : Option String) (rest : Answers) (symbol : String) :
    List.lookup symbol ((known, text) :: rest) =
      if symbol = known then some text else rest.lookup symbol := by
  rw [List.lookup_cons]
  by_cases hsame : symbol = known
  · rw [if_pos hsame, beq_iff_eq.2 hsame]
  · rw [if_neg hsame, beq_eq_false_iff_ne.2 hsame]

theorem lookup_set (answers : Answers) (symbol other : String) (text : Option String) :
    (answers.set symbol text).lookup other =
      if other = symbol then some text else answers.lookup other := by
  induction answers with
  | nil => exact lookup_cons symbol text [] other
  | cons answer rest ih =>
    obtain ⟨known, old⟩ := answer
    rw [set]
    split
    · next hsame =>
      subst hsame
      rw [lookup_cons, lookup_cons]
      split <;> rfl
    · next hdiffers =>
      rw [lookup_cons, lookup_cons, ih]
      by_cases hother : other = known
      · rw [if_pos hother, if_pos hother, if_neg (hother ▸ hdiffers)]
      · rw [if_neg hother, if_neg hother]

/-- The lines of a reply, in which carriage returns count for nothing. -/
def replyLines (output : String) : List String :=
  Tool.lines (String.ofList (output.toList.filter fun c => c != '\r'))

theorem ofReply?_eq (symbols : List String) (output : String) :
    ofReply? symbols output =
      if (replyLines output).length = symbols.length then
        some (ofLines symbols (replyLines output))
      else none := rfl

end Answers

namespace Demangler

variable {demangler : Demangler} {symbol : String}

/-! ### Answers -/

theorem lookup_learn (demangler : Demangler) (symbols : List String) (answers : Option Answers)
    (symbol : String) :
    (demangler.learn symbols answers).cache.lookup symbol =
      if symbol ∈ symbols then some ((answers.getD []).lookup symbol).join
      else demangler.cache.lookup symbol := by
  unfold learn
  dsimp only
  generalize demangler.cache = cache
  induction symbols generalizing cache with
  | nil => rfl
  | cons first rest ih =>
    rw [List.foldl_cons, ih, Answers.lookup_set]
    by_cases hrest : symbol ∈ rest
    · rw [if_pos hrest, if_pos (List.mem_cons_of_mem _ hrest)]
    · by_cases hfirst : symbol = first
      · rw [if_neg hrest, if_pos hfirst, if_pos (hfirst ▸ List.mem_cons_self ..), hfirst]
      · have hnone : symbol ∉ first :: rest := by simp [hfirst, hrest]
        rw [if_neg hrest, if_neg hfirst, if_neg hnone]

theorem knows_learn (demangler : Demangler) (symbols : List String) (answers : Option Answers)
    (symbol : String) :
    (demangler.learn symbols answers).knows symbol =
      (decide (symbol ∈ symbols) || demangler.knows symbol) := by
  rw [knows, lookup_learn, knows]
  by_cases hsymbol : symbol ∈ symbols <;> simp [hsymbol]

theorem knows_ask (demangler : Demangler) (tools : Toolbox) (symbols : List String)
    (symbol : String) : (demangler.ask tools symbols).2.knows symbol = demangler.knows symbol := by
  unfold ask
  split
  · rfl
  · split <;> rfl

theorem knows_askAhead (demangler : Demangler) (tools : Toolbox) {symbols : List String}
    (hsymbol : symbol ∈ symbols) (hitanium : isItaniumSymbol symbol = true) :
    (demangler.askAhead tools symbols .itanium).knows symbol = true := by
  have hpending : symbol ∈ demangler.pending symbols ∨ demangler.knows symbol = true := by
    by_cases hknown : demangler.knows symbol = true
    · exact .inr hknown
    · refine .inl (List.mem_eraseDups.2 (List.mem_filter.2 ⟨hsymbol, ?_⟩))
      simp [hitanium, hknown]
  rw [askAhead, if_pos rfl]
  dsimp only
  split
  · next hempty =>
    rw [List.isEmpty_iff.1 hempty] at hpending
    exact hpending.resolve_left List.not_mem_nil
  · rw [knows_learn, knows_ask, Bool.or_eq_true, decide_eq_true_eq]
    exact hpending

/-- A symbol of which the demangler knows all that it is going to know. -/
def Settles (demangler : Demangler) (symbol : String) (abi : Abi) : Prop :=
  abi = .itanium → isItaniumSymbol symbol = true → demangler.knows symbol = true

theorem snd_demangle {abi : Abi} (h : demangler.Settles symbol abi) (tools : Toolbox) :
    (demangler.demangle tools symbol abi).2 = demangler := by
  rw [demangle]
  split
  · next hasked =>
    rw [Bool.and_eq_true, decide_eq_true_eq] at hasked
    dsimp only
    rw [if_pos (h hasked.1 hasked.2)]
  · rfl

theorem query_guards {kept : Demangler → Prop} {abi : Abi}
    (h : ∀ state, kept state → state.Settles symbol abi) (tools : Toolbox) :
    (query tools symbol abi).Guards kept (fun _ => False) := by
  intro state hstate
  have hsame : ((query tools symbol abi).runFrom state).2 = state :=
    snd_demangle (h state hstate) tools
  rw [hsame]
  refine ⟨hstate, fun fault hfault => ?_⟩
  cases hfault

/-! ### Runs of tools -/

open Session (spawns)

theorem spawns_append (trace events : List Trace) :
    spawns (trace ++ events) = spawns trace ++ spawns events :=
  List.filterMap_append

theorem spawns_map_logged (records : List Log.Record) :
    spawns (records.map Trace.logged) = [] := by
  rw [spawns, List.filterMap_map]
  exact List.filterMap_eq_nil_iff.2 fun _ _ => rfl

/-- The state is that of the demangler but for log records at the end of the trace. -/
def HasLogged (demangler state : Demangler) : Prop :=
  ∃ records : List Log.Record, state = demangler.note (records.map .logged)

theorem hasLogged_self (demangler : Demangler) : demangler.HasLogged demangler := by
  refine ⟨[], ?_⟩
  rw [List.map_nil, note, List.append_nil]

theorem HasLogged.note {state : Demangler} (h : demangler.HasLogged state) (record : Log.Record) :
    demangler.HasLogged (state.note [.logged record]) := by
  obtain ⟨records, rfl⟩ := h
  refine ⟨records ++ [record], ?_⟩
  simp only [Demangler.note, List.append_assoc, List.map_append, List.map_singleton]

theorem HasLogged.spawns_eq {state : Demangler} (h : demangler.HasLogged state) :
    spawns state.trace = spawns demangler.trace := by
  obtain ⟨records, rfl⟩ := h
  rw [Demangler.note, spawns_append, spawns_map_logged, List.append_nil]

/-- Whether the command runs on the batch, reports success and replies with a line for each symbol. -/
def isUsable (tools : Toolbox) (symbols : List String) (command : String) : Bool :=
  let run := tools ⟨command, batchInput symbols⟩
  run.succeeded && (Answers.replyLines run.output).length == symbols.length

/-- The commands to which a batch is given: those in front of the first usable one, and that. -/
def tried (tools : Toolbox) (symbols commands : List String) : List String :=
  commands.takeWhile (fun command => !isUsable tools symbols command) ++
    (commands.find? (isUsable tools symbols)).toList

theorem tried_cons (tools : Toolbox) (symbols : List String) (command : String)
    (rest : List String) :
    tried tools symbols (command :: rest) =
      command :: if isUsable tools symbols command then [] else tried tools symbols rest := by
  unfold tried
  cases husable : isUsable tools symbols command with
  | true =>
    rw [List.takeWhile_cons_of_neg (by simp [husable]), List.find?_cons_of_pos husable]
    rfl
  | false =>
    rw [List.takeWhile_cons_of_pos (by simp [husable]),
      List.find?_cons_of_neg (by simp [husable])]
    rfl

theorem tried_prefix (tools : Toolbox) (symbols commands : List String) :
    tried tools symbols commands <+: commands := by
  induction commands with
  | nil => exact List.nil_prefix
  | cons command rest ih =>
    rw [tried_cons]
    split
    · exact ⟨rest, rfl⟩
    · exact (List.prefix_cons_inj command).2 ih

theorem tried_eq_nil_iff {tools : Toolbox} {symbols commands : List String} :
    tried tools symbols commands = [] ↔ commands = [] := by
  cases commands with
  | nil => exact iff_of_true rfl rfl
  | cons command rest =>
    rw [tried_cons]
    exact iff_of_false (List.cons_ne_nil _ _) (List.cons_ne_nil _ _)

/-- The command that is tried first either gives the answers or leaves the batch to the others, with a
record of why. -/
theorem tryCommands_cons (tools : Toolbox) (symbols : List String) (command : String)
    (rest : List String) :
    tryCommands tools symbols (command :: rest) =
        (some (Answers.ofLines symbols
          (Answers.replyLines (tools ⟨command, batchInput symbols⟩).output)),
          [.spawned ⟨command, batchInput symbols⟩]) ∧
        isUsable tools symbols command = true ∨
      ∃ record, (record = failedRecord command (tools ⟨command, batchInput symbols⟩) ∨
          record = mismatchRecord command symbols.length) ∧
        tryCommands tools symbols (command :: rest) =
          ((tryCommands tools symbols rest).1,
            .spawned ⟨command, batchInput symbols⟩ :: .logged record ::
              (tryCommands tools symbols rest).2) ∧
        isUsable tools symbols command = false := by
  have husable : isUsable tools symbols command =
      ((tools ⟨command, batchInput symbols⟩).succeeded &&
        (Answers.replyLines (tools ⟨command, batchInput symbols⟩).output).length ==
          symbols.length) := rfl
  rw [tryCommands]
  dsimp only
  split
  · next hsucceeded =>
    rw [Answers.ofReply?_eq]
    by_cases hlines : (Answers.replyLines
        (tools ⟨command, batchInput symbols⟩).output).length = symbols.length
    · rw [if_pos hlines]
      exact .inl ⟨rfl, by simp [husable, hsucceeded, hlines]⟩
    · rw [if_neg hlines]
      exact .inr ⟨_, .inr rfl, rfl, by simp [husable, hlines]⟩
  · next hfailed => exact .inr ⟨_, .inl rfl, rfl, by simp [husable, hfailed]⟩

theorem fst_tryCommands (tools : Toolbox) (symbols commands : List String) :
    (tryCommands tools symbols commands).1 =
      (commands.find? (isUsable tools symbols)).map fun command =>
        Answers.ofLines symbols
          (Answers.replyLines (tools ⟨command, batchInput symbols⟩).output) := by
  induction commands with
  | nil => rfl
  | cons command rest ih =>
    obtain ⟨htry, husable⟩ | ⟨record, -, htry, husable⟩ :=
      tryCommands_cons tools symbols command rest
    · rw [htry, List.find?_cons_of_pos husable, Option.map_some]
    · rw [htry, List.find?_cons_of_neg (by simp [husable]), ih]

theorem spawns_tryCommands (tools : Toolbox) (symbols commands : List String) :
    spawns (tryCommands tools symbols commands).2 =
      (tried tools symbols commands).map fun command => ⟨command, batchInput symbols⟩ := by
  induction commands with
  | nil => rfl
  | cons command rest ih =>
    rw [tried_cons]
    obtain ⟨htry, husable⟩ | ⟨record, -, htry, husable⟩ :=
      tryCommands_cons tools symbols command rest
    · rw [htry, husable]
      rfl
    · rw [htry, husable, if_neg Bool.false_ne_true, List.map_cons, ← ih]
      rfl

theorem trace_learn (demangler : Demangler) (symbols : List String) (answers : Option Answers) :
    (demangler.learn symbols answers).trace = demangler.trace := rfl

theorem spawns_ask_fresh (tools : Toolbox) (symbols commands : List String) :
    spawns ((fresh commands).ask tools symbols).2.trace =
      spawns (tryCommands tools symbols commands).2 := by
  have hcommands : (fresh commands).commands = commands := rfl
  rw [ask, if_neg (show ¬ (fresh commands).givenUp = true from Bool.false_ne_true), hcommands]
  rcases tryCommands tools symbols commands with ⟨_ | answers, events⟩
  · show spawns (events ++ [_]) = spawns events
    rw [spawns_append]
    exact List.append_nil _
  · rfl

/-- The first batch of a demangler runs the first of its tools, each on the whole batch. -/
theorem exists_spawns_askAhead (tools : Toolbox) (commands symbols : List String) (abi : Abi) :
    ∃ tried, tried <+: commands ∧
      (tried = [] ↔
        abi ≠ .itanium ∨ (fresh commands).pending symbols = [] ∨ commands = []) ∧
      spawns ((fresh commands).askAhead tools symbols abi).trace =
        tried.map fun command => ⟨command, batchInput ((fresh commands).pending symbols)⟩ := by
  rw [askAhead]
  dsimp only
  split
  · next hitanium =>
    split
    · next hempty =>
      have hnone := List.isEmpty_iff.1 hempty
      exact ⟨[], List.nil_prefix, by simp [hnone], rfl⟩
    · next hsome =>
      refine ⟨_, tried_prefix tools ((fresh commands).pending symbols) commands, ?_, ?_⟩
      · rw [tried_eq_nil_iff]
        refine ⟨fun hnone => .inr (.inr hnone), ?_⟩
        rintro (hother | hnone | hnone)
        · exact absurd hitanium hother
        · rw [hnone] at hsome
          exact absurd rfl hsome
        · exact hnone
      · rw [trace_learn, spawns_ask_fresh, spawns_tryCommands]
  · next hother => exact ⟨[], List.nil_prefix, by simp [hother], rfl⟩

end Demangler

end CallGraph
