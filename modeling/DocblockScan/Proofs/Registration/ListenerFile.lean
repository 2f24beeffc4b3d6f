import DocblockScan.Proofs.Listener
import DocblockScan.Proofs.Registration.Lossless

/-!
# Listener files lose nothing

A reader of listener files, and the proof that it gives back the events and the handler of
every listener that was written, in order and whatever characters the texts contain:
`readListenerFile_eventDefinitions`. As for routes, the reader knows nothing of how the
statements are written.
-/

namespace DocblockScan.Registration

/-! ## Reader -/

/-- What a listener statement says. -/
structure ListenerRecord where
  events : List String
  handler : String
deriving Repr, DecidableEq

/-- What the statement of a listener is meant to say. -/
def ListenerRecord.ofListener (listener : Listener) : ListenerRecord where
  events := listener.events
  handler := listener.handler

/-- A listener statement: an array of events and a handler. -/
def readListenerStatement (text : List Char) : Option (ListenerRecord × List Char) := do
  let rest ← expect? "array(".toList (← expect? "$events->listen(".toList text)
  let (events, after) ← readListed ')' readQuoted rest
  let (handler, after) ← readQuoted (← expect? [','] after)
  return (⟨events, handler⟩, ← expect? [';'] (← expect? [')'] after))

/-- A listener file. -/
def readListenerFile (text : List Char) : Option (List ListenerRecord) := do
  readSequence readListenerStatement (← Text.dropStart? "<?php".toList text)

/-! ## Statements -/

/-- Events are read back after their opening bracket. -/
theorem readListed_events (events : List String) (after : List Char) :
    readListed ')' readQuoted
        (List.intercalate [','] (events.map fun event => (quote event).toList) ++ ')' :: after) =
      some (events, after) := by
  have spaces : Spaces [] := nofun
  have reads : ∀ event ∈ events, ReadsListed ')' readQuoted (quote event).toList event :=
    fun event _ => ⟨⟨_, toList_quote event⟩, fun after _ => readQuoted_quote event after⟩
  exact readListed_intercalate (by decide) reads spaces spaces after

/-- The statement of a listener in pieces: the events, the handler. -/
theorem toList_listenerStatement (listener : Listener) :
    (listenerStatement listener).toList =
      "$events->listen(".toList ++ ("array(".toList ++
        (List.intercalate [','] (listener.events.map fun event => (quote event).toList) ++
          ')' :: ',' :: ' ' :: ((quote listener.handler).toList ++ [')', ';']))) := by
  have closing : ")".toList = [')'] := rfl
  have comma : ",".toList = [','] := rfl
  have gap : ", ".toList = [',', ' '] := rfl
  have ending : ");".toList = [')', ';'] := rfl
  unfold listenerStatement arrayCall
  rw [String.toList_append, String.toList_append, String.toList_append, String.toList_append,
    String.toList_append, String.toList_append, closing, gap, ending, String.toList_intercalate,
    List.map_map, comma]
  -- the words of the call stay whole
  generalize "$events->listen(".toList = call
  generalize "array(".toList = array
  simp only [List.append_assoc, List.cons_append, List.nil_append, Function.comp_def]

/-- A statement is read back, whatever follows it. -/
theorem readListenerStatement_listenerStatement (listener : Listener) (after : List Char) :
    readListenerStatement ((listenerStatement listener).toList ++ after) =
      some (.ofListener listener, after) := by
  have started : ∀ text, expect? "$events->listen(".toList ("$events->listen(".toList ++ text) =
      some text := fun _ => rfl
  have array : ∀ text, expect? "array(".toList ("array(".toList ++ text) = some text := fun _ => rfl
  have events := readListed_events listener.events
    (',' :: ' ' :: ((quote listener.handler).toList ++ ')' :: ';' :: after))
  have comma : ∀ text, expect? [','] (',' :: text) = some text := fun _ => rfl
  have closed : expect? [')'] (')' :: ';' :: after) = some (';' :: after) := rfl
  have ended : expect? [';'] (';' :: after) = some after := rfl
  have pieces : (listenerStatement listener).toList ++ after =
      "$events->listen(".toList ++ ("array(".toList ++
        (List.intercalate [','] (listener.events.map fun event => (quote event).toList) ++
          ')' :: ',' :: ' ' :: ((quote listener.handler).toList ++ ')' :: ';' :: after))) := by
    rw [toList_listenerStatement]
    simp only [List.append_assoc, List.cons_append, List.nil_append]
  rw [pieces]
  simp only [readListenerStatement, started, array, events, comma, readQuoted_space,
    readQuoted_quote, closed, ended, Option.bind_eq_bind, Option.bind_some]
  rfl

theorem readsStatement_listenerStatement (listener : Listener) :
    ReadsStatement readListenerStatement (listenerStatement listener).toList
      (.ofListener listener) where
  shape := ⟨"events->listen(".toList ++ ("array(".toList ++
      (List.intercalate [','] (listener.events.map fun event => (quote event).toList) ++
        ')' :: ',' :: ' ' :: ((quote listener.handler).toList ++ [')']))), by
    rw [toList_listenerStatement]
    simp⟩
  read := readListenerStatement_listenerStatement listener

/-! ## Files -/

/-- A listener file is its opening tag, the statements and a line end. -/
theorem toList_listenerFile (listeners : List Listener) :
    (file (eventDefinitions listeners)).toList =
      "<?php".toList ++ (['\n', '\n'] ++ (List.intercalate ['\n'] (listeners.map
        fun listener => (listenerStatement listener).toList) ++ ['\n'])) := by
  unfold file eventDefinitions
  rw [trimmed_intercalate readsStatement_listenerStatement,
    trimmed_intercalate readsStatement_listenerStatement]
  simp [String.toList_intercalate, Function.comp_def]

/-- The file that is written for some listeners is read back listener for listener. -/
theorem readListenerFile_eventDefinitions (listeners : List Listener) :
    readListenerFile (file (eventDefinitions listeners)).toList =
      some (listeners.map ListenerRecord.ofListener) := by
  have feeds : Spaces ['\n', '\n'] := by decide
  have feed : Spaces ['\n'] := by decide
  have opened : ∀ text, Text.dropStart? "<?php".toList ("<?php".toList ++ text) = some text :=
    fun _ => rfl
  rw [readListenerFile, toList_listenerFile, opened]
  exact readSequence_intercalate readsStatement_listenerStatement feeds feed feed

/-! ## Completeness -/

open Outcome (First)

/-- Listeners are complete and nothing of them is lost. A list of classes has listeners
exactly if all docblocks can be read and each hears tag on a method makes one, and they are
what the hears tags say, one for one and in order. The file of any listeners gives back
their events and handlers in order. With given tags a class is refused exactly with the
first hears tag on a method that lists no events; a list of classes is refused exactly with
the first class of which a docblock cannot be read or such a tag is found. -/
theorem listeners_complete_lossless :
    (∀ registry declarations listeners, listenersOf registry declarations = .ok listeners ↔
      ∃ perClass, List.Forall₂ (MakesListeners registry) declarations perClass ∧
        listeners = perClass.flatten) ∧
    (∀ listeners, readListenerFile (file (eventDefinitions listeners)).toList =
      some (listeners.map ListenerRecord.ofListener)) ∧
    (∀ className tags error, classListeners className tags = .error error ↔
      First (Hearing.Fails className) tags.hearings error) ∧
    ∀ registry declarations error, listenersOf registry declarations = .error error ↔
      First (FailsToListen registry) declarations error :=
  ⟨fun _ _ _ => listenersOf_eq_ok_iff, readListenerFile_eventDefinitions,
    fun _ _ _ => classListeners_eq_error_iff, fun _ _ _ => listenersOf_eq_error_iff⟩

/-- A class with a docblock that cannot be read, and without methods. -/
def unreadClass : ClassDeclaration where
  name := "Audit"
  doc := some "/** @Hears( */"
  methods := []
  origin := none

/-- A docblock on a class that cannot be read stops the listeners, though no method has a
hears tag. -/
theorem listenersOf_unreadClass :
    ¬ ∀ registry declarations, (∃ error, listenersOf registry declarations = .error error) ↔
      ∃ declaration ∈ declarations, ∃ tags, TagSet.read registry declaration = .ok tags ∧
        ∃ hearing ∈ tags.hearings, ∃ error, hearing.Fails declaration.name error := by
  intro onlyHears
  have stops : (TagSet.read .events unreadClass).isOk = false := by decide +kernel
  cases read : TagSet.read .events unreadClass with
  | ok tags =>
      rw [read] at stops
      cases stops
  | error error =>
      have fails : listenersOf .events [unreadClass] = .error error :=
        listenersOf_eq_error_iff.2 (.here (.unread read))
      obtain ⟨declaration, member, tags, found, -⟩ := (onlyHears _ _).1 ⟨error, fails⟩
      obtain rfl := List.mem_singleton.1 member
      rw [read] at found
      cases found

end DocblockScan.Registration
