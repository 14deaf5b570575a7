/-!
# Programs that print

A program prints lines, some as output and some as messages, and ends with an exit code. It may end
before all is done; what it has printed by then stays.

* `Program.println`, `eprintln`, `exit`: what a program can do.
* `Program.outcome`: what a program leaves.
-/

namespace TryResources

/-- Lines as one text, in which each ends with a line break. -/
def Text.unlines (lines : List String) : String :=
  String.join (lines.map (· ++ "\n"))

/-- A line that is printed. -/
inductive Event
  /-- As output. -/
  | out (line : String)
  /-- As a message. -/
  | err (line : String)
  deriving Repr, DecidableEq

/-- What a program leaves: an exit code and all that was printed, in order. -/
structure Outcome where
  exitCode : Nat
  events : List Event
  deriving Repr, DecidableEq

namespace Outcome

/-- The lines of output. -/
def output (o : Outcome) : List String :=
  o.events.filterMap fun
    | .out line => some line
    | .err _ => none

/-- The lines of messages. -/
def errors (o : Outcome) : List String :=
  o.events.filterMap fun
    | .out _ => none
    | .err line => some line

/-- The messages as one text, if there are any. -/
def message (o : Outcome) : Option String :=
  match o.errors with
  | [] => none
  | lines => some ("\n".intercalate lines)

/-- The output as one text. -/
def stdout (o : Outcome) : String :=
  Text.unlines o.output

end Outcome

/-- What is printed until there is a value, or until the program ends with an exit code. -/
structure Program (α : Type) where
  events : List Event
  result : Except Nat α

namespace Program

/-- A program goes on with the next step unless it has ended. -/
instance : Monad Program where
  pure a := ⟨[], .ok a⟩
  bind x f :=
    match x.result with
    | .ok a =>
      let y := f a
      ⟨x.events ++ y.events, y.result⟩
    | .error code => ⟨x.events, .error code⟩

theorem map_id' {α : Type} (p : Program α) : id <$> p = p := by
  obtain ⟨events, code | a⟩ := p
  · rfl
  · show (⟨events ++ [], .ok a⟩ : Program α) = ⟨events, .ok a⟩
    rw [List.append_nil]

theorem bind_assoc' {α β γ : Type} (p : Program α) (f : α → Program β) (g : β → Program γ) :
    p >>= f >>= g = p >>= fun a => f a >>= g := by
  obtain ⟨events, code | a⟩ := p
  · rfl
  · show (⟨events ++ (f a).events, (f a).result⟩ >>= g : Program γ) =
      ⟨events ++ (f a >>= g).events, (f a >>= g).result⟩
    obtain ⟨events', code | b⟩ := f a
    · rfl
    · show (⟨(events ++ events') ++ (g b).events, (g b).result⟩ : Program γ) =
        ⟨events ++ (events' ++ (g b).events), (g b).result⟩
      rw [List.append_assoc]

instance : LawfulMonad Program :=
  LawfulMonad.mk' Program map_id' (fun _ _ => rfl) bind_assoc'

/-- Prints a line of output. -/
def println (line : String) : Program Unit :=
  ⟨[.out line], .ok ()⟩

/-- Prints a line of a message. -/
def eprintln (line : String) : Program Unit :=
  ⟨[.err line], .ok ()⟩

/-- Ends the program. -/
def exit {α : Type} (code : Nat) : Program α :=
  ⟨[], .error code⟩

/-- What the program leaves. Unless it ends otherwise, its exit code is `0`. -/
def outcome (p : Program Unit) : Outcome where
  exitCode :=
    match p.result with
    | .ok () => 0
    | .error code => code
  events := p.events

end Program

end TryResources
