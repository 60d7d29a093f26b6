import CodeQuality.Proofs.Journal
import CodeQuality.Proofs.Run.ExitCode
import CodeQuality.Run.Server

/-!
# Commands step by step

What a command does is what its steps do, one after the other, up to the first one that fails. The
commands of the program print only in the end, when nothing can fail any more; so a run either shows
something, or fails and has shown nothing.

* `Command.run_bind` — two steps.
* `Command.Prints` — commands that only print.
* `Surroundings.shows`, `Surroundings.fails` — the two kinds of outcomes.
-/

namespace CodeQuality

namespace Command

variable {α β : Type} {x y : Command Unit} {a b : String}

theorem run_bind (x : Command α) (f : α → Command β) (t : Trail) :
    (x >>= f).run t =
      match x.run t with
      | (.ok a, t) => (f a).run t
      | (.error e, t) => (.error e, t) := by
  show (match x.run t with
    | (r, t) => (ExceptT.bindCont f r) t) = _
  cases x.run t with
  | mk r t => cases r <;> rfl

theorem run_require (x : Except RunError α) (t : Trail) : (require x).run t = (x, t) := rfl

theorem require_ok_bind (a : α) (f : α → Command β) : require (.ok a) >>= f = f a := rfl

theorem run_call (action : Action α) (t : Trail) :
    (call action).run t = ((action.run t.journal).1.mapError .call,
      { t with journal := (action.run t.journal).2 }) := rfl

theorem run_save (settings : Settings) (path : String) (room : Option Nat) (t : Trail) :
    (save settings path room).run t = ((settings.save t.files path room).1.mapError .settings,
      { t with files := (settings.save t.files path room).2 }) := rfl

theorem run_bind_ok {x : Command α} {t t' : Trail} {a : α} (h : x.run t = (.ok a, t'))
    (f : α → Command β) : (x >>= f).run t = (f a).run t' := by
  rw [run_bind, h]

/-! ### Printing -/

/-- Does the command print `text`, and nothing else? It cannot fail then. -/
def Prints (x : Command Unit) (text : String) : Prop :=
  ∀ t : Trail, x.run t = (.ok (), { t with output := t.output ++ text })

theorem prints_print (text : String) : (print text).Prints text := fun _ => rfl

theorem prints_pure : (pure () : Command Unit).Prints "" := fun t => by
  rw [String.append_empty]
  rfl

theorem Prints.bind (hx : x.Prints a) (hy : y.Prints b) : (do x; y : Command Unit).Prints (a ++ b) := by
  intro t
  rw [run_bind_ok (hx t), hy]
  dsimp only
  rw [String.append_assoc]

/-- Texts are printed one after the other. -/
theorem prints_forM {α : Type} (f : α → String) (as : List α) :
    (as.forM fun a => print (f a) : Command Unit).Prints (String.join (as.map f)) := by
  induction as with
  | nil => exact prints_pure
  | cons a as ih =>
    have hjoin : String.join ((a :: as).map f) = f a ++ String.join (as.map f) := by
      apply String.toList_injective
      simp [String.toList_join]
    rw [hjoin]
    exact (prints_print (f a)).bind ih

theorem prints_printJson (v : Json.Value) : (printJson v).Prints (v.pretty ++ "\n") :=
  (prints_print v.pretty).bind (prints_print "\n")

end Command

namespace Display

/-- What is printed of a value in JSON. -/
def jsonText (v : Json.Value) : String := v.pretty ++ "\n"

/-- What is printed to show something. -/
def text (d : Display) (e : Exhibit) : String :=
  if d.json then jsonText e.value else String.join e.texts

theorem text_singleton {d : Display} (hjson : d.json = false) (v : Json.Value) (text : String) :
    d.text ⟨v, [text]⟩ = text := by
  rw [Display.text, hjson]
  exact String.empty_append

theorem prints_print (d : Display) (e : Exhibit) : (d.print e).Prints (d.text e) := by
  unfold print text
  split
  · exact Command.prints_printJson e.value
  · have htexts := Command.prints_forM id e.texts
    rwa [List.map_id] at htexts

end Display

/-! ### Outcomes -/

namespace Surroundings

variable {s : Surroundings} {command : Command Unit} {t : Trail} {e : RunError} {text : String}

/-- The outcome of a run that has shown a text. -/
def shows (s : Surroundings) (text : String) (files : FileTree) (journal : Journal := {}) : Outcome :=
  { output := text, files, journal, result := .ok (), exitCode := RunError.success
    errors := s.logged journal }

/-- The outcome of a run that has failed, and has shown nothing before. -/
def fails (s : Surroundings) (e : RunError) (files : FileTree) (journal : Journal := {}) : Outcome :=
  { output := "", files, journal, result := .error e, exitCode := e.exitCode
    errors := s.logged journal ++ s.errorLine e }

theorem carryOut_ok (h : command.run { files := s.files } = (.ok (), t)) :
    s.carryOut command = s.shows t.output t.files t.journal := by
  unfold carryOut
  rw [h]
  rfl

theorem carryOut_error (h : command.run { files := s.files } = (.error e, t))
    (houtput : t.output = "") : s.carryOut command = s.fails e t.files t.journal := by
  unfold carryOut
  rw [h, fails, ← houtput]

theorem carryOut_prints (h : command.Prints text) : s.carryOut command = s.shows text s.files := by
  rw [carryOut_ok (h _)]
  exact congrArg (s.shows · s.files) (String.empty_append)

/-- A command that lacks what it begins with does nothing else. -/
theorem carryOut_require_error {α : Type} (f : α → Command Unit) :
    s.carryOut (Command.require (.error e) >>= f) = s.fails e s.files := by
  refine carryOut_error (t := { files := s.files }) ?_ rfl
  rw [Command.run_bind, Command.run_require]

end Surroundings
end CodeQuality
