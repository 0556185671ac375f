import LoxLex.Scan

/-! Scanning into a sink.

A sink takes reports one at a time, has a state, and may refuse to go on.  The
events of a text are handed on in order: a token is kept, a report goes to the
sink, and when the sink refuses the scan ends there and no tokens are returned.
The state that the sink had at its refusal stays.  The recursion keeps the tokens
in reverse; `deliver_token` and `deliver_report` are the semantic model.
-/

namespace LoxLex

abbrev Sink (ε σ : Type) := Report → EStateM ε σ Unit

def deliverAfter {ε σ : Type} (sink : Sink ε σ) (done : List Token) :
    List Event → EStateM ε σ (List Token)
  | [] => pure done.reverse
  | .token token :: rest => deliverAfter sink (token :: done) rest
  | .report report :: rest => do
    sink report
    deliverAfter sink done rest

/-- Hands events on to a sink and returns the tokens among them. -/
def deliver {ε σ : Type} (sink : Sink ε σ) (events : List Event) : EStateM ε σ (List Token) :=
  deliverAfter sink [] events

theorem deliverAfter_append {ε σ : Type} (sink : Sink ε σ) (done front : List Token)
    (events : List Event) (state : σ) :
    deliverAfter sink (done ++ front) events state =
      match deliverAfter sink done events state with
      | .ok tokens after => .ok (front.reverse ++ tokens) after
      | .error reason after => .error reason after := by
  induction events generalizing done state with
  | nil => simp [deliverAfter, pure, EStateM.pure]
  | cons event rest ih =>
      cases event with
      | token token => exact ih (token :: done) state
      | report report =>
          simp only [deliverAfter, bind, EStateM.bind]
          cases sink report state with
          | ok _ middle => exact ih done middle
          | error reason middle => rfl

@[simp] theorem deliver_nil {ε σ : Type} (sink : Sink ε σ) (state : σ) :
    deliver sink [] state = .ok [] state := rfl

theorem deliver_token {ε σ : Type} (sink : Sink ε σ) (token : Token) (rest : List Event)
    (state : σ) :
    deliver sink (.token token :: rest) state =
      match deliver sink rest state with
      | .ok tokens after => .ok (token :: tokens) after
      | .error reason after => .error reason after :=
  deliverAfter_append sink [] [token] rest state

theorem deliver_report {ε σ : Type} (sink : Sink ε σ) (report : Report) (rest : List Event)
    (state : σ) :
    deliver sink (.report report :: rest) state =
      match sink report state with
      | .ok _ after => deliver sink rest after
      | .error reason after => .error reason after := by
  simp only [deliver, deliverAfter, bind, EStateM.bind]
  cases sink report state <;> rfl

/-- The tokens of a text, with its reports sent to a sink. -/
def scanInto {ε σ : Type} (sink : Sink ε σ) (text : Text) : EStateM ε σ (List Token) :=
  deliver sink (events text)

end LoxLex
