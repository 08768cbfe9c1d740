import CallGraph.Proofs.Demangler.LifeCycle
import CallGraph.Proofs.Text.Pieces
import Mathlib.Data.List.Find

/-!
# Batches make no difference

Tools that stay the same, each of which fails or replies line by line, say the same about a symbol in
every batch: no reply is shifted or lost on its way through the lines of a text. A demangler therefore
knows of every symbol what it would have found out about that symbol alone, and `IsFaithful` is kept by
every call, so that it makes no difference which batches there were before or what was asked.
-/

namespace CallGraph

/-! ### Lines -/

namespace Tool

theorem map_pieces_join {words : List String} (h : ∀ word ∈ words, '\n' ∉ word.toList) (text : String) :
    (Text.pieces '\n' (String.join (words.map fun word => word ++ "\n") ++ text).toList).map String.ofList =
      words ++ (Text.pieces '\n' text.toList).map String.ofList := by
  have hchars : (String.join (words.map fun word => word ++ "\n")).toList =
      (words.map String.toList).flatMap fun word => word ++ ['\n'] := by
    rw [String.toList_join, List.flatMap_map, List.flatMap_map]
    simp only [String.toList_append]
    rfl
  rw [String.toList_append, hchars, Text.pieces_flatMap_append (List.forall_mem_map.2 h), List.map_append,
    List.map_map]
  simp [Function.comp_def]

/-- The last piece is a line unless it is empty. -/
theorem lines_of_pieces {text last : String} {words : List String}
    (h : (Text.pieces '\n' text.toList).map String.ofList = words ++ [last]) :
    lines text = if last = "" then words else words ++ [last] := by
  simp only [lines, h, List.getLast?_concat, List.dropLast_concat, beq_iff_eq, Option.some.injEq]

theorem lines_join {words : List String} (h : ∀ word ∈ words, '\n' ∉ word.toList) :
    lines (String.join (words.map fun word => word ++ "\n")) = words := by
  have hpieces := map_pieces_join h ""
  rw [String.append_empty] at hpieces
  exact lines_of_pieces hpieces

/-- A last line that is not empty is a line without a line end, too. -/
theorem lines_join_append {words : List String} (h : ∀ word ∈ words, '\n' ∉ word.toList) {last : String}
    (hlast : '\n' ∉ last.toList) (hne : last ≠ "") :
    lines (String.join (words.map fun word => word ++ "\n") ++ last) = words ++ [last] := by
  have hpieces := map_pieces_join h last
  rw [Text.pieces_eq_singleton hlast, List.map_singleton, String.ofList_toList] at hpieces
  rw [lines_of_pieces hpieces, if_neg hne]

end Tool

namespace Answers

def withoutReturns (line : String) : String :=
  String.ofList (line.toList.filter fun c => c != '\r')

/-- Texts in a row lose a character just as each of them does. -/
theorem filter_join {α : Type} {keep : Char → Bool} {text kept : α → String}
    (h : ∀ item, (text item).toList.filter keep = (kept item).toList) (items : List α) :
    String.ofList ((String.join (items.map text)).toList.filter keep) = String.join (items.map kept) := by
  apply String.toList_injective
  rw [String.toList_ofList, String.toList_join, String.toList_join, List.filter_flatMap, List.flatMap_map,
    List.flatMap_map]
  simp only [h]

theorem replyLines_join {words : List String} (h : ∀ word ∈ words, '\n' ∉ word.toList) :
    replyLines (String.join (words.map fun word => word ++ "\n")) = words.map withoutReturns := by
  have hkept : ∀ word ∈ words.map withoutReturns, '\n' ∉ word.toList := by
    rw [List.forall_mem_map]
    intro word hword hnewline
    rw [withoutReturns, String.toList_ofList] at hnewline
    exact h word hword (List.mem_of_mem_filter hnewline)
  have hreturns (word : String) : (word ++ "\n").toList.filter (fun c => c != '\r') =
      (withoutReturns word ++ "\n").toList := by
    simp [withoutReturns]
  have hlines := Tool.lines_join hkept
  rw [List.map_map] at hlines
  rw [replyLines, filter_join hreturns]
  exact hlines

/-- What a line of a reply says about its symbol. -/
def ofLine? (symbol line : String) : Option String :=
  if line = "" || line = symbol then none else some line

theorem lookup_ofLines_map (line : String → String) (symbols : List String) (symbol : String) :
    (ofLines symbols (symbols.map line)).lookup symbol =
      if symbol ∈ symbols then some (ofLine? symbol (line symbol)) else none := by
  -- A symbol that comes again has the same line again, so that it does no harm to set it twice.
  have hfold : ∀ answers : Answers,
      ((symbols.zip (symbols.map line)).foldl (fun (answers : Answers) pair =>
        answers.set pair.1 (ofLine? pair.1 pair.2)) answers).lookup symbol =
      if symbol ∈ symbols then some (ofLine? symbol (line symbol)) else answers.lookup symbol := by
    induction symbols with
    | nil => intro answers; rfl
    | cons first rest ih =>
      intro answers
      rw [List.map_cons, List.zip_cons_cons, List.foldl_cons, ih, lookup_set]
      by_cases hrest : symbol ∈ rest
      · rw [if_pos hrest, if_pos (List.mem_cons_of_mem _ hrest)]
      · by_cases hfirst : symbol = first
        · rw [if_neg hrest, if_pos hfirst, if_pos (hfirst ▸ List.mem_cons_self ..), hfirst]
        · have hnone : symbol ∉ first :: rest := by simp [hfirst, hrest]
          rw [if_neg hrest, if_neg hfirst, if_neg hnone]
  exact hfold []

end Answers

/-! ### Tools that stay the same -/

namespace Toolbox

def Fails (tools : Toolbox) (command : String) : Prop :=
  ∀ input, (tools ⟨command, input⟩).succeeded = false

/-- The command succeeds on every input, and replies to each of its lines with a line of its own. -/
def RepliesWith (tools : Toolbox) (command : String) (reply : String → String) : Prop :=
  (∀ line, '\n' ∉ line.toList → '\n' ∉ (reply line).toList) ∧
    ∀ input, (tools ⟨command, input⟩).succeeded = true ∧
      (tools ⟨command, input⟩).output =
        String.join ((Tool.lines input).map fun line => reply line ++ "\n")

def IsSteady (tools : Toolbox) : Prop :=
  ∀ command, tools.Fails command ∨ ∃ reply, tools.RepliesWith command reply

end Toolbox

namespace Tool

/-- Whether the tool fails on every input or answers line by line. -/
def IsSteady : Tool → Prop
  | .broken _ => True
  | .printing _ status => status ≠ 0
  | .lookingUp table status => status ≠ 0 ∨ ∀ entry ∈ table, '\n' ∉ entry.2.toList

instance (tool : Tool) : Decidable tool.IsSteady :=
  match tool with
  | .broken _ => inferInstanceAs (Decidable True)
  | .printing _ status => inferInstanceAs (Decidable (status ≠ 0))
  | .lookingUp table status =>
    inferInstanceAs (Decidable (status ≠ 0 ∨ ∀ entry ∈ table, '\n' ∉ entry.2.toList))

theorem newline_not_mem_lookup {table : List (String × String)}
    (h : ∀ entry ∈ table, '\n' ∉ entry.2.toList) {line : String} (hline : '\n' ∉ line.toList) :
    '\n' ∉ ((table.lookup line).getD line).toList := by
  cases hentry : table.lookup line with
  | none => exact hline
  | some reply =>
    obtain ⟨before, after, rfl, -⟩ := List.lookup_eq_some_iff.1 hentry
    exact h (line, reply) (by simp)

theorem IsSteady.fails_or_replies {tool : Tool} (h : tool.IsSteady) {tools : Toolbox}
    {command : String} (hrun : ∀ input, tools ⟨command, input⟩ = tool.run input) :
    tools.Fails command ∨ ∃ reply, tools.RepliesWith command reply := by
  cases tool with
  | broken failure =>
    left
    intro input
    rw [hrun]
    rfl
  | printing output status =>
    have hstatus : status ≠ 0 := h
    left
    intro input
    rw [hrun]
    simp [Tool.run, ToolRun.succeeded, hstatus]
  | lookingUp table status =>
    by_cases hstatus : status = 0
    · subst hstatus
      have hfree := h.resolve_left fun hother => hother rfl
      right
      refine ⟨fun line => (table.lookup line).getD line,
        fun line hline => newline_not_mem_lookup hfree hline, fun input => ?_⟩
      rw [hrun]
      exact ⟨rfl, rfl⟩
    · left
      intro input
      rw [hrun]
      simp [Tool.run, ToolRun.succeeded, hstatus]

end Tool

theorem Toolbox.isSteady_ofList {tools : List (String × Tool)}
    (h : ∀ entry ∈ tools, entry.2.IsSteady) : (Toolbox.ofList tools).IsSteady := by
  intro command
  cases htool : tools.lookup command with
  | none =>
    left
    intro input
    simp [Toolbox.ofList, htool, ToolRun.succeeded]
  | some tool =>
    have hsteady : tool.IsSteady := by
      obtain ⟨before, after, rfl, -⟩ := List.lookup_eq_some_iff.1 htool
      exact h (command, tool) (by simp)
    apply hsteady.fails_or_replies
    intro input
    simp [Toolbox.ofList, htool]

namespace Demangler

variable {tools : Toolbox} {demangler : Demangler} {command symbol : String}
  {batch symbols commands : List String}

theorem isUsable_of_fails (hfails : tools.Fails command) (batch : List String) :
    isUsable tools batch command = false := by
  rw [isUsable, hfails, Bool.false_and]

theorem replyLines_of_repliesWith {reply : String → String}
    (hreplies : tools.RepliesWith command reply) (hbatch : ∀ symbol ∈ batch, '\n' ∉ symbol.toList) :
    Answers.replyLines (tools ⟨command, batchInput batch⟩).output =
      batch.map fun symbol => Answers.withoutReturns (reply symbol) := by
  obtain ⟨hline, hrun⟩ := hreplies
  have hreplied : ∀ line ∈ batch.map reply, '\n' ∉ line.toList := by
    rw [List.forall_mem_map]
    exact fun symbol hsymbol => hline symbol (hbatch symbol hsymbol)
  have hjoined := Answers.replyLines_join hreplied
  rw [List.map_map, List.map_map] at hjoined
  rw [(hrun _).2, batchInput, Tool.lines_join hbatch]
  exact hjoined

theorem isUsable_of_repliesWith {reply : String → String}
    (hreplies : tools.RepliesWith command reply) (hbatch : ∀ symbol ∈ batch, '\n' ∉ symbol.toList) :
    isUsable tools batch command = true := by
  rw [isUsable, (hreplies.2 _).1, replyLines_of_repliesWith hreplies hbatch, List.length_map]
  simp

theorem fails_of_isUsable_eq_false (hsteady : tools.IsSteady)
    (hbatch : ∀ symbol ∈ batch, '\n' ∉ symbol.toList)
    (hunusable : isUsable tools batch command = false) : tools.Fails command := by
  rcases hsteady command with hfails | ⟨reply, hreplies⟩
  · exact hfails
  · rw [isUsable_of_repliesWith hreplies hbatch] at hunusable
    cases hunusable

/-- What the tools say about a symbol that is sent alone. -/
def lone (tools : Toolbox) (commands : List String) (symbol : String) : Option String :=
  (((tryCommands tools [symbol] commands).1.getD []).lookup symbol).join

theorem lone_of_fails (hfails : ∀ command ∈ commands, tools.Fails command) (symbol : String) :
    lone tools commands symbol = none := by
  have hnone : (tryCommands tools [symbol] commands).1 = none :=
    fst_tryCommands_eq_none_iff.2 fun command hcommand =>
      isUsable_of_fails (hfails command hcommand) [symbol]
  rw [lone, hnone]
  rfl

theorem join_lookup_tryCommands (hsteady : tools.IsSteady) (commands : List String)
    (hbatch : ∀ symbol ∈ batch, '\n' ∉ symbol.toList) (hsymbol : symbol ∈ batch) :
    (((tryCommands tools batch commands).1.getD []).lookup symbol).join =
      lone tools commands symbol := by
  have halone : ∀ other ∈ [symbol], '\n' ∉ other.toList :=
    List.forall_mem_singleton.2 (hbatch symbol hsymbol)
  -- Which command is usable does not depend on the batch, and so neither does the first that is.
  have husable : commands.find? (isUsable tools [symbol]) = commands.find? (isUsable tools batch) := by
    apply List.find?_congr
    intro command _
    rcases hsteady command with hfails | ⟨reply, hreplies⟩
    · rw [isUsable_of_fails hfails, isUsable_of_fails hfails]
    · rw [isUsable_of_repliesWith hreplies halone, isUsable_of_repliesWith hreplies hbatch]
  rw [lone, fst_tryCommands, fst_tryCommands, husable]
  cases hfound : commands.find? (isUsable tools batch) with
  | none => rfl
  | some command =>
    have hcommand := List.find?_some hfound
    rcases hsteady command with hfails | ⟨reply, hreplies⟩
    · rw [isUsable_of_fails hfails] at hcommand
      cases hcommand
    · rw [Option.map_some, Option.map_some, Option.getD_some, Option.getD_some,
        replyLines_of_repliesWith hreplies hbatch, replyLines_of_repliesWith hreplies halone,
        Answers.lookup_ofLines_map, Answers.lookup_ofLines_map, if_pos hsymbol,
        if_pos (List.mem_singleton.2 rfl)]

/-! ### What a demangler knows by then -/

/-- The demangler knows what the tools say about each symbol alone, and gives the tools up only if all of
them fail. -/
structure IsFaithful (tools : Toolbox) (demangler : Demangler) : Prop where
  answers : ∀ symbol, demangler.knows symbol = true →
    (demangler.cache.lookup symbol).join = lone tools demangler.commands symbol
  fails : demangler.givenUp = true → ∀ command ∈ demangler.commands, tools.Fails command

theorem isFaithful_fresh (tools : Toolbox) (commands : List String) :
    IsFaithful tools (fresh commands) where
  answers _ hknown := nomatch hknown
  fails hgivenUp := nomatch hgivenUp

theorem IsFaithful.join_said (hfaithful : IsFaithful tools demangler) (hsteady : tools.IsSteady)
    (hsymbols : ∀ symbol ∈ symbols, '\n' ∉ symbol.toList) (hsymbol : symbol ∈ symbols) :
    (((demangler.said tools symbols).getD []).lookup symbol).join =
      lone tools demangler.commands symbol := by
  rw [said]
  split
  · next hgivenUp =>
    rw [lone_of_fails (hfaithful.fails hgivenUp)]
    rfl
  · exact join_lookup_tryCommands hsteady demangler.commands hsymbols hsymbol

theorem Asks.isFaithful {after : Demangler} (h : Asks tools demangler symbols after)
    (hsteady : tools.IsSteady) (hsymbols : ∀ symbol ∈ symbols, '\n' ∉ symbol.toList)
    (hfaithful : IsFaithful tools demangler) : IsFaithful tools after where
  answers symbol hknown := by
    rw [h.commands_eq, h.lookup_eq]
    split
    · next hsymbol => exact hfaithful.join_said hsteady hsymbols hsymbol
    · next hother =>
      rw [h.knows_eq, decide_eq_false hother, Bool.false_or] at hknown
      exact hfaithful.answers symbol hknown
  fails hgivenUp := by
    rw [h.commands_eq]
    cases h with
    | nothing => exact hfaithful.fails hgivenUp
    | givenUp hbefore => exact hfaithful.fails hbefore
    | answered _ hstill => exact absurd hgivenUp (by simp [learn, note, hstill])
    | failed _ _ htry =>
      have hnone := congrArg Prod.fst htry
      intro command hcommand
      exact fails_of_isUsable_eq_false hsteady hsymbols
        (fst_tryCommands_eq_none_iff.1 hnone command hcommand)

/-- The symbols of the call that may be sent are free of line ends. -/
def Call.IsPlain (call : Call) : Prop :=
  call.abi = .itanium → ∀ symbol ∈ call.symbols, isItaniumSymbol symbol = true →
    '\n' ∉ symbol.toList

instance (call : Call) : Decidable call.IsPlain :=
  inferInstanceAs (Decidable (_ → _))

variable {call : Call} {calls : List Call}

theorem Call.IsPlain.newline_not_mem (hplain : call.IsPlain) (demangler : Demangler) :
    ∀ symbol ∈ demangler.wanted call, '\n' ∉ symbol.toList := by
  intro symbol hsymbol
  obtain ⟨hitanium, hin, hmangled, -⟩ := mem_wanted_iff.1 hsymbol
  exact hplain hitanium symbol hin hmangled

theorem isFaithful_perform (hsteady : tools.IsSteady) (hplain : call.IsPlain)
    (hfaithful : IsFaithful tools demangler) :
    IsFaithful tools (demangler.perform tools call).2 :=
  (asks_perform demangler tools call).isFaithful hsteady (hplain.newline_not_mem demangler) hfaithful

theorem fst_demangle_eq_lone (hsteady : tools.IsSteady)
    (hplain : (Call.demangle symbol .itanium).IsPlain) (hmangled : isItaniumSymbol symbol = true)
    (hfaithful : IsFaithful tools demangler) :
    (demangler.demangle tools symbol .itanium).1 = lone tools demangler.commands symbol := by
  have hafter := isFaithful_perform hsteady hplain hfaithful
  have hknown : (demangler.perform tools (.demangle symbol .itanium)).2.knows symbol = true :=
    knows_perform rfl (List.mem_singleton.2 rfl) hmangled
  have hanswer := hafter.answers symbol hknown
  rw [(asks_perform demangler tools _).commands_eq] at hanswer
  rw [fst_demangle, if_pos ⟨rfl, hmangled⟩]
  exact hanswer

theorem fst_perform_eq (hsteady : tools.IsSteady) (hplain : call.IsPlain)
    (hfaithful : IsFaithful tools demangler) :
    (demangler.perform tools call).1 = ((fresh demangler.commands).perform tools call).1 := by
  cases call with
  | askAhead symbols abi => rfl
  | demangle symbol abi =>
    show (demangler.demangle tools symbol abi).1 =
      ((fresh demangler.commands).demangle tools symbol abi).1
    by_cases hasked : abi = .itanium ∧ isItaniumSymbol symbol = true
    · obtain ⟨rfl, hmangled⟩ := hasked
      have hfresh := isFaithful_fresh tools demangler.commands
      rw [fst_demangle_eq_lone hsteady hplain hmangled hfaithful,
        fst_demangle_eq_lone hsteady hplain hmangled hfresh]
      rfl
    · rw [fst_demangle, fst_demangle, if_neg hasked, if_neg hasked]

/-- The answers to calls that all find the same tools. -/
def answersTo (tools : Toolbox) (demangler : Demangler) : List Call → List (Option String)
  | [] => []
  | call :: rest =>
    (demangler.perform tools call).1 :: answersTo tools (demangler.perform tools call).2 rest

theorem answersTo_eq_map (hsteady : tools.IsSteady) (hplain : ∀ call ∈ calls, call.IsPlain)
    (hfaithful : IsFaithful tools demangler) :
    answersTo tools demangler calls =
      calls.map fun call => ((fresh demangler.commands).perform tools call).1 := by
  induction calls generalizing demangler with
  | nil => rfl
  | cons call rest ih =>
    obtain ⟨hcall, hrest⟩ := List.forall_mem_cons.1 hplain
    rw [answersTo, List.map_cons, fst_perform_eq hsteady hcall hfaithful,
      ih hrest (isFaithful_perform hsteady hcall hfaithful),
      (asks_perform demangler tools call).commands_eq]

/-- Where the tools stay the same and fail or answer line by line, every call in a life is answered as a
demangler would that has never been called before. -/
theorem answersTo_fresh (hsteady : tools.IsSteady) (commands : List String)
    (hplain : ∀ call ∈ calls, call.IsPlain) :
    answersTo tools (fresh commands) calls =
      calls.map fun call => ((fresh commands).perform tools call).1 :=
  answersTo_eq_map hsteady hplain (isFaithful_fresh tools commands)

/-- A tool that is there but broken, and one that knows four symbols. It replies to the second with
nothing, to the third with the symbol, and to the fourth with a carriage return at the end. -/
def steadyTools : List (String × Tool) :=
  [("llvm-cxxfilt", .broken "timed out"),
    ("c++filt", .lookingUp [("_ZA", "a"), ("_ZB", ""), ("_ZC", "_ZC"), ("_ZD", "d\r")] 0)]

/-- Calls whose batches end with a symbol that gets no reply, or hold symbols that are known. -/
def steadyCalls : List Demangler.Call :=
  [.demangle "_ZD" .itanium, .askAhead ["_ZC", "_ZA", "_ZA", "_ZD", "_ZB"] .itanium,
    .demangle "_ZB" .itanium, .demangle "_ZA" .msvc, .demangle "_ZA" .itanium]

theorem answersTo_fresh_sample :
    (Toolbox.ofList steadyTools).IsSteady ∧ (∀ call ∈ steadyCalls, call.IsPlain) ∧
      answersTo (.ofList steadyTools) (fresh defaultCommands) steadyCalls =
        [some "d", none, none, none, some "a"] := by
  have hsteady : (Toolbox.ofList steadyTools).IsSteady :=
    Toolbox.isSteady_ofList (by decide +kernel)
  have hplain : ∀ call ∈ steadyCalls, call.IsPlain := by decide +kernel
  have hanswers := answersTo_fresh hsteady defaultCommands hplain
  refine ⟨hsteady, hplain, ?_⟩
  rw [hanswers]
  decide +kernel

end Demangler

end CallGraph
