import Alignak.ExternalCommands

/-!
# A batch of external commands

The loop over a batch goes on as long as no command raises: the errors of the
parser that are caught make a command be ignored.
-/

namespace Alignak

namespace ExternalCommandManager

variable {ν W : Type} (manager : ExternalCommandManager ν W)

/-! ## The numbers of a command -/

/-- The texts that `to_int` reads, up to a host or a service that is not found. -/
def numbersRead : Option (List Char) → List ArgType → List (List Char) → List (List Char)
  | _, _, [] => []
  | some tmpHost, types, elt :: elts =>
    if elt = [] ∨ manager.directory.service tmpHost (serviceName elt) = none then [] else numbersRead none types elts
  | none, [], _ :: _ => []
  | none, .host :: types, elt :: elts => if manager.directory.host (strip elt) = none then [] else numbersRead none types elts
  | none, .service :: types, elt :: elts => if strip elt = [] then [] else numbersRead (some (strip elt)) types elts
  | none, .toInt :: types, elt :: elts => strip elt :: numbersRead none types elts
  | none, _ :: types, _ :: elts => numbersRead none types elts

def Readable (texts : List (List Char)) : Prop := ∀ text ∈ texts, ∃ n, toInt text = .ok n

theorem raised_ne : ∀ f : Numerals.Failure, raised f ≠ .indexError
  | .value => Exn.noConfusion
  | .overflow => Exn.noConfusion

theorem toInt_error {text : List Char} {e : Exn} (h : toInt text = .error e) : e ≠ .indexError := by
  unfold toInt at h
  split at h
  · cases h
  · unfold readFloat at h
    cases hf : (Numerals.toFloat text).bind Numerals.truncate with
    | ok n =>
      rw [hf] at h
      cases h
    | error f =>
      rw [hf] at h
      cases h
      exact raised_ne f

/-- The parser returns, or raises what it catches. -/
def Caught {α : Type} (x : Except Exn α) : Prop := (∃ a, x = .ok a) ∨ x = .error .indexError

theorem caught_map {α β : Type} {x : Except Exn α} {f : α → β} : Caught (x.map f) ↔ Caught x := by
  cases x with
  | error e => simp [Caught, Except.map]
  | ok a => simp [Caught, Except.map]

theorem readArgs_caught : ∀ (host : Option (List Char)) (types : List ArgType) (elts : List (List Char)),
    Caught (manager.readArgs host types elts) ↔ Readable (manager.numbersRead host types elts)
  | none, _, [] => ⟨fun _ _ htext => absurd htext List.not_mem_nil, fun _ => .inl ⟨_, by rw [readArgs]⟩⟩
  | some _, _, [] => ⟨fun _ _ htext => absurd htext List.not_mem_nil, fun _ => .inl ⟨_, by rw [readArgs]⟩⟩
  | some tmpHost, types, elt :: elts => by
    have ih := readArgs_caught none types elts
    rw [readArgs, numbersRead]
    by_cases helt : elt = []
    · rw [if_pos helt, if_pos (.inl helt)]
      exact ⟨fun _ _ htext => absurd htext List.not_mem_nil, fun _ => .inr rfl⟩
    rw [if_neg helt]
    cases hservice : manager.directory.service tmpHost (serviceName elt) with
    | none =>
      rw [if_pos (.inr rfl)]
      exact ⟨fun _ _ htext => absurd htext List.not_mem_nil, fun _ => .inl ⟨_, rfl⟩⟩
    | some uuid =>
      rw [if_neg (by simp [helt])]
      exact caught_map.trans ih
  | none, [], _ :: _ => ⟨fun _ _ htext => absurd htext List.not_mem_nil, fun _ => .inr rfl⟩
  | none, type :: types, elt :: elts => by
    have ih := readArgs_caught none types elts
    cases type with
    | host =>
      rw [readArgs, numbersRead]
      cases hhost : manager.directory.host (strip elt) with
      | none =>
        rw [if_pos rfl]
        exact ⟨fun _ _ htext => absurd htext List.not_mem_nil, fun _ => .inl ⟨_, rfl⟩⟩
      | some uuid =>
        rw [if_neg (by simp)]
        exact caught_map.trans ih
    | service =>
      have ih := readArgs_caught (some (strip elt)) types elts
      rw [readArgs, numbersRead]
      by_cases helt : strip elt = []
      · rw [if_pos helt, if_pos helt]
        exact ⟨fun _ _ htext => absurd htext List.not_mem_nil, fun _ => .inr rfl⟩
      · rw [if_neg helt, if_neg helt]
        exact ih
    | toInt =>
      rw [readArgs, numbersRead, Readable, List.forall_mem_cons]
      cases hn : toInt (strip elt) with
      | error e =>
        refine ⟨fun h => ?_, fun h => ?_⟩
        · rcases h with ⟨a, ha⟩ | h
          · cases ha
          · cases h
            exact absurd rfl (toInt_error hn)
        · obtain ⟨⟨n, hn⟩, -⟩ := h
          cases hn
      | ok n => exact caught_map.trans (ih.trans ⟨fun h => ⟨⟨n, rfl⟩, h⟩, fun h => h.2⟩)
    | _ => exact caught_map.trans ih

def numbersOf (command : List Char) : List (List Char) :=
  match manager.header ((splitSemicolon command none).headD []) with
  | none => []
  | some (_, cName) =>
    match commands.lookup (String.ofList cName) with
    | none => []
    | some types => manager.numbersRead none types (argTexts types command)

theorem getCommandAndArgs_ok_iff (command : List Char) :
    (∃ call, manager.getCommandAndArgs command = .ok call) ↔ Readable (manager.numbersOf command) := by
  unfold getCommandAndArgs numbersOf
  cases manager.header ((splitSemicolon command none).headD []) with
  | none => exact ⟨fun _ _ htext => absurd htext List.not_mem_nil, fun _ => ⟨none, rfl⟩⟩
  | some named =>
    obtain ⟨timestamp, cName⟩ := named
    simp only
    cases commands.lookup (String.ofList cName) with
    | none => exact ⟨fun _ _ htext => absurd htext List.not_mem_nil, fun _ => ⟨none, rfl⟩⟩
    | some types =>
      simp only
      rw [← readArgs_caught]
      constructor
      · rintro ⟨call, h⟩
        split at h
        next hread => exact .inr hread
        · cases h
        next hread => exact .inl ⟨_, hread⟩
        next hread => exact .inl ⟨_, hread⟩
      · intro h
        rcases h with ⟨read, h⟩ | h
        · rw [h]
          cases read with
          | none => exact ⟨none, rfl⟩
          | some read =>
            simp only
            split
            · exact ⟨_, rfl⟩
            · exact ⟨_, rfl⟩
        · rw [h]
          exact ⟨none, rfl⟩

/-! ## The run -/

def wellFormed (cmdLine : List Char) : Option (Call ν) :=
  match manager.getCommandAndArgs (strip cmdLine) with
  | .ok call => call
  | .error _ => none

def effects (cmds : List (List Char)) (w : W) : W :=
  (cmds.filterMap manager.wellFormed).foldl (fun w call => (manager.perform call w).1) w

/-- The numbers of the line are numbers, and its command has a method that does not raise. -/
structure Tame (cmdLine : List Char) (w : W) : Prop where
  readable : Readable (manager.numbersOf (strip cmdLine))
  method : ∀ call, manager.wellFormed cmdLine = some call → call.name ∉ unimplemented ∧ (manager.perform call w).2 = none

theorem effects_cons (command : List Char) (cmds : List (List Char)) (w : W) :
    manager.effects (command :: cmds) w = manager.effects cmds (manager.effects [command] w) := by
  unfold effects
  rw [← List.foldl_append, ← List.filterMap_append]
  rfl

theorem resolveCommand_iff (command : List Char) (w : W) :
    (manager.resolveCommand command w).2 = none ↔ manager.Tame command w := by
  have hok := manager.getCommandAndArgs_ok_iff (strip command)
  unfold resolveCommand
  cases hcall : manager.getCommandAndArgs (strip command) with
  | error e =>
    refine ⟨fun h => (nomatch h), fun h => ?_⟩
    obtain ⟨call, hcall'⟩ := hok.mpr h.readable
    cases hcall.symm.trans hcall'
  | ok call =>
    have hformed : manager.wellFormed command = call := by
      unfold wellFormed
      rw [hcall]
    have hread := hok.mp ⟨call, hcall⟩
    cases call with
    | none => exact ⟨fun _ => ⟨hread, fun call e => (nomatch hformed.symm.trans e)⟩, fun _ => rfl⟩
    | some call =>
      simp only [callMethod]
      by_cases hname : call.name ∈ unimplemented
      · rw [if_pos hname]
        exact ⟨fun h => (nomatch h), fun h => absurd hname (h.method call hformed).1⟩
      · rw [if_neg hname]
        refine ⟨fun h => ⟨hread, fun call' e => ?_⟩, fun h => (h.method call hformed).2⟩
        cases hformed.symm.trans e
        exact ⟨hname, h⟩

/-- A command that does not raise has its effect. -/
theorem resolveCommand_effects {command : List Char} {w : W} (h : (manager.resolveCommand command w).2 = none) :
    (manager.resolveCommand command w).1 = manager.effects [command] w := by
  unfold resolveCommand at h ⊢
  unfold effects
  cases hcall : manager.getCommandAndArgs (strip command) with
  | error e =>
    rw [hcall] at h
    cases h
  | ok call =>
    have hformed : manager.wellFormed command = call := by
      unfold wellFormed
      rw [hcall]
    rw [hcall] at h
    rw [List.filterMap_cons, hformed]
    cases call with
    | none => rfl
    | some call =>
      simp only [callMethod] at h ⊢
      by_cases hname : call.name ∈ unimplemented
      · rw [if_pos hname] at h
        cases h
      · rw [if_neg hname]
        rfl

theorem run_cons (command : List Char) (cmds : List (List Char)) (w : W) :
    manager.runExternalCommands (command :: cmds) w = if (manager.resolveCommand command w).2 = none then
      manager.runExternalCommands cmds (manager.resolveCommand command w).1 else manager.resolveCommand command w := by
  rw [runExternalCommands]
  obtain ⟨w', e⟩ := manager.resolveCommand command w
  cases e with
  | none => exact (if_pos rfl).symm
  | some e => exact (if_neg (Option.some_ne_none e)).symm

def noting : ExternalCommandManager (List Char) (List String) where
  directory := ⟨some, fun _ => some, some, some, some, some, some, fun _ => true⟩
  now := 0
  perform := fun call w => (w ++ [call.name], none)

end ExternalCommandManager

end Alignak
