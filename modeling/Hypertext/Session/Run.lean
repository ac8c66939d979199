import Hypertext.Document.Seed
import Hypertext.Session.Step
import Hypertext.Summary

/-! # Running steps

Each step leaves a report. Refused steps and other errors change nothing about the steps behind them,
unless a list of steps is run carefully; an `abort` ends the list that it stands in. -/

namespace Hypertext

namespace Eval

/-- An outcome is what the session comes to. -/
def complete (o : Outcome Session) : Eval Answer := do
  ofLogged ⟨(), o.log⟩
  set o.state
  match o.refusal with
  | some e => return .refused e
  | none => return .done

/-- What can be seen of a builder. Looking at all of it at once leaves no log. -/
def lookAt (b : Builder) (st : Store) : Look → Logged Answer
  | .render => .render <$> b.render st
  | .brief => .brief <$> b.brief st
  | .inspect => .inspect <$> b.inspect st
  | .all =>
    pure <| .builder
      { name := b.name
        isEmpty := b.isEmpty
        depth := b.depth
        placeholders := b.placeholders.names
        render := (b.render st).value
        brief := (b.brief st).value
        inspect := (b.inspect st).value }

/-- What can be seen of a handle. Looking at all of it at once leaves no log. -/
def lookAtHandle (h : Handle) (st : Store) : Look → Logged Answer
  | .render => .render <$> h.render st
  | .brief | .inspect => .brief <$> h.brief st
  | .all =>
    pure <| .handle
      { name := h.name
        isPlaceholder := h.isPlaceholder
        isEmpty := st.isEmpty h.slot
        render := (h.render st).value
        brief := (h.brief st).value }

/-- A new document from a configuration, which is changed by the settings first. -/
def newDocument (builder : String) (config : Except ConfigError DocumentConfig)
    (settings : List (Setting ValueExpr)) : Eval Answer := do
  let settings ← settings.mapM setting
  match config with
  | .error e => return .badConfig e
  | .ok config =>
    match document (settings.foldl DocumentConfig.apply config) with
    | .error e => return .refused e
    | .ok doc =>
      let doc ← ofLogged doc
      modify (·.putBuilder builder doc)
      return .done

def registryStep (name : String) : RegistryStep → Eval Answer
  | .create => do
    modify (·.bindRegistry name {})
    return .done
  | .declare placeholder target => do
    match (← registry name).declare placeholder (← get).store with
    | .error e => return .refused e
    | .ok d =>
      modify fun s => { s with store := d.store }.bindRegistry name d.registry
      if let some v := target then modify (·.bindHandle v d.handle)
      return .registry d.registry .none
  | .adopt handleName => do
    let h ← handle handleName
    let before ← registry name
    let after ← ofLogged (before.adopt h)
    modify (·.bindRegistry name after)
    return .registry after (.changed (before.lacks h))
  | .merge other => do
    let other ← registry other
    let after ← ofLogged ((← registry name).merge other)
    modify (·.bindRegistry name after)
    return .registry after .none
  | .find placeholder target => do
    let r ← registry name
    if let some h := r.find? placeholder then modify (·.bindHandle target h)
    return .registry r (.found (r.contains placeholder))
  | .contains placeholder => do
    let r ← registry name
    return .registry r (.found (r.contains placeholder))
  | .clear => do
    discard (registry name)
    modify (·.bindRegistry name {})
    return .registry {} .none
  | .look => return .registry (← registry name) .none

/-- A step without steps of its own. -/
def step : Step → Eval Answer
  | .create name given => do
    modify (·.putBuilder name { name := given.getD "E Builder" })
    return .done
  | .newDocument name config settings => newDocument name config settings
  | .call name call => do
    let call ← builderCall call
    complete ((← get).callBuilder name (← builder name) call)
  | .placeholder name placeholder target => do
    match (← builder name).placeholder placeholder with
    | .error e => return .refused e
    | .ok h =>
      modify (·.bindHandle target h)
      return .done
  | .share name target => do
    let b ← takeBuilder name
    modify (·.share b target)
    return .done
  | .look name look => do ofLogged (lookAt (← builder name) (← get).store look)
  | .handleCall name call => do
    let call ← handleCall call
    complete ((← get).callHandle (← handle name) call)
  | .copyHandle name target => do
    let h ← handle name
    modify (·.bindHandle target h)
    return .done
  | .sameSlot name other => do
    return .same ((← handle name).slot == (← handle other).slot)
  | .lookHandle name look => do ofLogged (lookAtHandle (← handle name) (← get).store look)
  | .registry name registry => registryStep name registry
  | .nest .. | .edit .. | .abort => failure

end Eval

/-- The variable that a step is about. -/
inductive Subject where
  | builder (name : String)
  | handle (name : String)
  | none

def Step.subject : Step → Subject
  | create b _ | newDocument b .. | call b _ | placeholder b .. | share b _ | look b _ | nest b .. =>
    .builder b
  | handleCall h _ | copyHandle h _ | sameSlot h _ | lookHandle h _ | edit h .. => .handle h
  | registry .. | abort => .none

/-- How the subject looks, if it is there. -/
def Session.view (s : Session) : Subject → Option View
  | .builder name => (s.builder? name).map fun b => .builder (b.render s.store).value b.depth
  | .handle name => (s.handles.find? name).map fun h => .handle (h.render s.store).value
  | .none => none

/-- A session behind a step, with the step's report. -/
structure Progress where
  session : Session
  report : Report
  /-- The steps around are to be given up. -/
  aborting : Bool := false

/-- A session behind a list of steps. -/
structure Trail where
  session : Session
  reports : List Report := []
  aborting : Bool := false

namespace Session

/-- A step without steps of its own. -/
def perform (s : Session) (step : Step) : Progress :=
  let run := (Eval.step step).run s |>.run
  match run.value with
  | some (answer, s) => { session := s, report := { answer, log := run.log } }
  | none => { session := s, report := { answer := .unknownVariable } }

/-- The report has a view of the step's subject unless `quiet`. -/
def observe (quiet : Bool) (step : Step) (progress : Progress) : Progress :=
  if quiet then progress
  else
    { progress with
      report := { progress.report with view := progress.session.view step.subject } }

mutual

/-- A step with its report. -/
def runStep (quiet : Bool) (s : Session) : Step → Progress
  | .nest name careful steps =>
    observe quiet (.nest name careful steps) <|
      match s.builder? name with
      | none => { session := s, report := { answer := .unknownVariable } }
      | some b =>
        let entered := s.enterScope name b
        let trail := runSteps quiet careful entered.value steps
        { session := trail.session.leaveScope name
          report :=
            { answer := .ran trail.aborting, log := entered.log, inner := trail.reports } }
  | .edit name target careful steps =>
    observe quiet (.edit name target careful steps) <|
      match s.handles.find? name with
      | none => { session := s, report := { answer := .unknownVariable } }
      | some h =>
        if s.store.isEdited h.slot then { session := s, report := { answer := .borrowed } }
        else
          let trail := runSteps quiet careful (s.beginEdit h.slot target) steps
          { session := trail.session.endEdit h.slot
            report := { answer := .ran trail.aborting, inner := trail.reports } }
  | .abort =>
    observe quiet .abort { session := s, report := { answer := .aborted }, aborting := true }
  | step => observe quiet step (s.perform step)

/-- Steps in order, up to an `abort` or, if `careful`, to the first error. -/
def runSteps (quiet careful : Bool) (s : Session) : List Step → Trail
  | [] => { session := s }
  | step :: steps =>
    let first := runStep quiet s step
    if first.aborting || (careful && first.report.answer.isError) then
      { session := first.session, reports := [first.report], aborting := first.aborting }
    else
      let rest := runSteps quiet careful first.session steps
      { rest with reports := first.report :: rest.reports }

end

end Session

end Hypertext
