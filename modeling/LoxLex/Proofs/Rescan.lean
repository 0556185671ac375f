import LoxLex.Cursor
import LoxLex.Proofs.Events

namespace LoxLex

/-- Sends reports to a sink one after another, up to the first that it refuses. -/
def Sink.send {ε σ : Type} (sink : Sink ε σ) : List Report → EStateM ε σ Unit
  | [] => pure ()
  | report :: rest => do
    sink report
    sink.send rest

section Send

variable {ε σ : Type} {sink : Sink ε σ} {report : Report} {state after : σ} {reason : ε}

theorem Sink.send_ok (rest : List Report) (taken : sink report state = .ok () after) :
    sink.send (report :: rest) state = sink.send rest after := by
  simp only [Sink.send, bind, EStateM.bind, taken]

theorem Sink.send_error (rest : List Report) (refused : sink report state = .error reason after) :
    sink.send (report :: rest) state = .error reason after := by
  simp only [Sink.send, bind, EStateM.bind, refused]

theorem deliver_send (sink : Sink ε σ) (events : List Event) (state : σ) :
    deliver sink events state =
      match sink.send (events.filterMap Event.report?) state with
      | .ok _ after => .ok (events.filterMap Event.token?) after
      | .error reason after => .error reason after := by
  induction events generalizing state with
  | nil => rfl
  | cons event rest ih =>
      cases event with
      | token token =>
          have same : (Event.token token :: rest).filterMap Event.report? =
              rest.filterMap Event.report? := rfl
          rw [deliver_token, ih, same]
          cases sink.send (rest.filterMap Event.report?) state <;> rfl
      | report report =>
          have first : (Event.report report :: rest).filterMap Event.report? =
              report :: rest.filterMap Event.report? := rfl
          rw [deliver_report, first]
          cases taken : sink report state with
          | ok _ after => rw [Sink.send_ok _ taken]; exact ih after
          | error reason after => rw [Sink.send_error _ taken]

theorem scanInto_send (sink : Sink ε σ) (source : Text) (state : σ) :
    scanInto sink source state =
      match sink.send (reports source) state with
      | .ok _ after => .ok (tokens source) after
      | .error reason after => .error reason after :=
  deliver_send sink (events source) state

end Send

namespace Cursor

section Steps

variable {ε σ : Type} {sink : Sink ε σ} {source : Text} {cursor next : Cursor}
  {report : Report} {state after : σ} {reason : ε}

theorem readFrom_end (sink : Sink ε σ) (state : σ) (stepped : cursor.step? source = none) :
    readFrom sink source cursor state = .ok () (cursor, state) := by
  rw [readFrom]
  split <;> simp_all

theorem readFrom_silent (sink : Sink ε σ) (state : σ)
    (stepped : cursor.step? source = some (next, none)) :
    readFrom sink source cursor state = readFrom sink source next state := by
  rw [readFrom]
  split <;> simp_all

theorem readFrom_taken (stepped : cursor.step? source = some (next, some report))
    (taken : sink report state = .ok () after) :
    readFrom sink source cursor state = readFrom sink source next after := by
  rw [readFrom]
  split <;> simp_all

theorem readFrom_refused (stepped : cursor.step? source = some (next, some report))
    (refused : sink report state = .error reason after) :
    readFrom sink source cursor state = .error reason (next, after) := by
  rw [readFrom]
  split <;> simp_all

end Steps

section Reading

variable {ε σ : Type} {source rest : Text} {cursor : Cursor} {piece : Piece}

theorem step?_end (ahead : source.drop cursor.current = []) : cursor.step? source = none := by
  rw [step?, ahead]

theorem step?_reads (reads : Reads piece rest)
    (ahead : source.drop cursor.current = piece.text ++ rest) :
    cursor.step? source = some (cursor.pass piece, piece.report? cursor.line) := by
  obtain ⟨c, tail, whole⟩ := List.exists_cons_of_ne_nil reads.nonempty
  have head : source.drop cursor.current = c :: (tail ++ rest) := by
    rw [ahead, whole, List.cons_append]
  have taken : (Piece.read c (tail ++ rest)).1 = piece :=
    ((Piece.read_reads c (tail ++ rest)).unique reads
      (by rw [Piece.read_append, ← head, ahead])).1
  rw [step?, head]
  simp only [taken]
  rfl

theorem drop_pass (ahead : source.drop cursor.current = piece.text ++ rest) :
    source.drop (cursor.pass piece).current = rest := by
  have behind := congrArg (List.drop piece.text.length) ahead
  rwa [List.drop_drop, List.drop_left] at behind

/-- From a cursor on, a source is read as what is ahead of the cursor is delivered. -/
theorem readFrom_deliver (sink : Sink ε σ) (state : σ)
    (ahead : source.drop cursor.current = rest) :
    match deliver sink (eventsFrom cursor.line rest) state with
    | .ok found after =>
      ∃ ended : Cursor, readFrom sink source cursor state = .ok () (ended, after) ∧
        ended.gathered = cursor.found.reverse ++ found
    | .error reason after =>
      ∃ left, readFrom sink source cursor state = .error reason (left, after) := by
  induction rest using reading_induction generalizing cursor state with
  | nil =>
      rw [eventsFrom_nil, deliver_token]
      exact ⟨cursor, readFrom_end sink state (step?_end ahead), List.reverse_cons⟩
  | step piece rest reads ih =>
      have stepped := step?_reads reads ahead
      have onward (state : σ) := @ih (cursor.pass piece) state (drop_pass ahead)
      have moved : (cursor.pass piece).line = cursor.line + Text.lineBreaks piece.text := rfl
      rw [moved] at onward
      rw [reads.eventsFrom_eq]
      rw [Piece.report?] at stepped
      -- A step finds a token, sends a report or does neither.
      rcases event : piece.event? cursor.line with _ | token | report
      · have kept : (cursor.pass piece).found = cursor.found := by simp [pass, event]
        rw [event] at stepped
        rw [kept] at onward
        rw [readFrom_silent sink state stepped]
        exact onward state
      · have kept : (cursor.pass piece).found = token :: cursor.found := by
          simp [pass, event, Event.token?]
        rw [event] at stepped
        rw [kept] at onward
        rw [readFrom_silent sink state stepped, Option.toList_some, List.singleton_append,
          deliver_token]
        have law := onward state
        cases delivered : deliver sink (eventsFrom _ rest) state with
        | ok found after =>
            rw [delivered] at law
            obtain ⟨ended, read, gathered⟩ := law
            exact ⟨ended, read, by rw [gathered, List.reverse_cons, List.append_assoc]; rfl⟩
        | error reason after =>
            rw [delivered] at law
            exact law
      · have kept : (cursor.pass piece).found = cursor.found := by simp [pass, event, Event.token?]
        rw [event] at stepped
        rw [kept] at onward
        rw [Option.toList_some, List.singleton_append, deliver_report]
        cases taken : sink report state with
        | ok _ after =>
            rw [readFrom_taken stepped taken]
            exact onward after
        | error reason after => exact ⟨_, readFrom_refused stepped taken⟩

/-- Wherever the cursor was before, it makes no difference to a scan. -/
theorem scan_eq (sink : Sink ε σ) (source : Text) (cursor : Cursor) (state : σ) :
    scan sink source (cursor, state) =
      match readFrom sink source {} state with
      | .ok _ (ended, after) => .ok ended.gathered ({ ended with found := [] }, after)
      | .error reason left => .error reason left := by
  have restarted : scan sink source (cursor, state) =
      EStateM.bind (fun left : Cursor × σ => readFrom sink source left.1 left.2)
        (fun _ => modifyGet fun left => (left.1.gathered, { left.1 with found := [] }, left.2))
        ({}, state) := rfl
  rw [restarted]
  simp only [EStateM.bind]
  cases readFrom sink source {} state <;> rfl

/-- A scan with a cursor comes to what a scan in one go comes to. -/
theorem scan_scanInto (sink : Sink ε σ) (source : Text) (cursor : Cursor) (state : σ) :
    match scanInto sink source state with
    | .ok found after => ∃ ended, scan sink source (cursor, state) = .ok found (ended, after)
    | .error reason after =>
      ∃ left, scan sink source (cursor, state) = .error reason (left, after) := by
  have ahead : source.drop ({} : Cursor).current = source := List.drop_zero
  have law := readFrom_deliver sink state ahead
  have whole : deliver sink (eventsFrom ({} : Cursor).line source) = scanInto sink source := rfl
  rw [whole] at law
  rw [scan_eq]
  cases result : scanInto sink source state with
  | ok found after =>
      rw [result] at law
      obtain ⟨ended, read, gathered⟩ := law
      refine ⟨{ ended with found := [] }, ?_⟩
      simp only [read]
      rw [gathered]
      rfl
  | error reason after =>
      rw [result] at law
      obtain ⟨left, read⟩ := law
      exact ⟨left, by simp only [read]⟩

theorem scan_taken {sink : Sink ε σ} {state after : σ} (cursor : Cursor)
    (sent : sink.send (reports source) state = .ok () after) :
    ∃ ended, scan sink source (cursor, state) = .ok (tokens source) (ended, after) := by
  have law := scan_scanInto sink source cursor state
  rwa [scanInto_send, sent] at law

theorem scan_refused {sink : Sink ε σ} {state after : σ} {reason : ε} (cursor : Cursor)
    (sent : sink.send (reports source) state = .error reason after) :
    ∃ left, scan sink source (cursor, state) = .error reason (left, after) := by
  have law := scan_scanInto sink source cursor state
  rwa [scanInto_send, sent] at law

end Reading

end Cursor

end LoxLex
