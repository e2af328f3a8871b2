import TypedAnt.Completion
import TypedAnt.Settings.Project
import TypedAnt.Store

/-!
# Sessions

A session is what the server keeps between the requests of its client.  A request is
handled in at most two parts.  The first runs when the request arrives; where the text
of a document has to be analysed, it ends with a job.  The job is worked off elsewhere
while other requests arrive, and the second part deals with its outcome.  By then the
document may have changed, and the outcome of an old text is dropped.
-/

namespace TypedAnt

structure Session where
  store : Store := {}
  settings : Settings := {}
  /-- The units in which the client counts columns. -/
  units : Units := .utf16
  /-- The level at which the log is kept. -/
  level : Nat := 30

namespace Session

inductive Request where
  | connect (encodings : List String) (options : Value) (workspace : Workspace)
  | configure (settings : Value)
  | openDocument (uri text : String)
  | change (uri : String) (texts : List String)
  | close (uri : String)
  | analyze (uri : String)
  | complete (uri : String) (position : Position)
  | shutdown

/-- Work on a text of the store, with all that it needs from the session. -/
inductive Job where
  | analysis (snap : Snapshot) (units : Units)
  | completion (snap : Snapshot) (units : Units) (includeBuiltins : Bool) (position : Position)

inductive Reply where
  | nothing
  | initialized (units : Units)
  | failed (failure : Settings.Failure)
  | completions (names : List String)

/-- What the client and the log see of a part of a request. -/
structure Effects where
  reply : Reply := .nothing
  published : List (String × List Diagnostic) := []
  log : List Log.Record := []

def written (s : Session) (records : List Log.Record) : List Log.Record :=
  records.filter (Log.Record.passes s.level)

def source : String :=
  "antlsp.server"

def publish (s : Session) (uri : String) (diagnostics : List Diagnostic) : Effects :=
  { published := [(uri, diagnostics)]
    log := s.written
      [⟨.debug, source,
        "_publish: " ++ uri ++ " → " ++ toString diagnostics.length ++ " diagnostics"⟩] }

/-!
# Settings of a session
-/

def negotiate (encodings : List String) : Units :=
  (encodings.findSome? Units.ofName?).getD .utf16

def adopt (s : Session) (settings : Settings) : Session × List Log.Record :=
  let level := Settings.applyLevel s.level settings.logLevel
  ({ s with settings := settings, level := level.value }, s.written level.log)

/-- A root URI has to come apart; without one, a root path has to be more than a share. -/
def refusal? (workspace : Workspace) : Option Settings.Failure :=
  match workspace.rootUri, workspace.rootPath with
  | some uri, _ =>
      match Uri.ofText uri with
      | .error fault => some (.root fault)
      | .ok _ => none
  | none, some path => if Workspace.isBareShare path then some .bareShare else none
  | none, none => none

/--
A workspace may be refused outright.  Otherwise the units are settled, even where the
settings cannot be loaded.
-/
def connect (files : FileTree) (limit : Nat) (s : Session)
    (encodings : List String) (options : Value) (workspace : Workspace) : Session × Effects :=
  match refusal? workspace with
  | some failure => (s, { reply := .failed failure })
  | none =>
      let s := { s with units := negotiate encodings }
      match workspace.root with
      | .error fault => (s, { reply := .failed (.root fault) })
      | .ok root =>
          let loaded := Settings.load files limit s.level root options
          let early := s.written loaded.log
          match loaded.value with
          | .error failure => (s, { reply := .failed failure, log := early })
          | .ok settings =>
              let (s, warnings) := s.adopt settings
              let notice : Log.Record :=
                ⟨.info, source,
                  "on_initialize: workspace=" ++ root.getD "None" ++ " settings=" ++
                    settings.shown⟩
              (s,
                { reply := .initialized s.units
                  log := early ++ warnings ++ s.written [notice] })

def isVoid : Value → Bool
  | .null => true
  | .bool b => !b
  | .int n => n == 0
  | .float bits => bits &&& 0x7FFFFFFFFFFFFFFF == 0
  | .text t => t.isEmpty
  | .list items => items.isEmpty
  | .table fields => fields.isEmpty
  | _ => false

def configure (limit : Nat) (s : Session) (settings : Value) : Session × Effects :=
  let adopted (fields : Fields Value) : Session × Effects :=
    let merged := s.settings.merge limit s.level ((fields.get? "antlsp").getD .null)
    let early := s.written merged.log
    match merged.value with
    | .error obstacle => (s, { reply := .failed (.value obstacle), log := early })
    | .ok settings =>
        let (s, warnings) := s.adopt settings
        (s, { log := early ++ warnings })
  match settings with
  | .table fields => adopted fields
  | value => if isVoid value then adopted [] else (s, {})

/-!
# The first part of a request
-/

def call (s : Session) (c : Store.Call) : Session × List Log.Record :=
  ({ s with store := (s.store.run c).1 }, s.written (s.store.log c))

def analysisOf (s : Session) (uri : String) : Option Job :=
  (s.store.snapshot? uri).map fun snap => .analysis snap s.units

def put (s : Session) (uri text : String) : Session × Effects × Option Job :=
  let (s, log) := s.call (.put uri text)
  (s, { log := log }, s.analysisOf uri)

def start (files : FileTree) (limit : Nat) (s : Session) :
    Request → Session × Effects × Option Job
  | .connect encodings options workspace =>
      let (s, effects) := s.connect files limit encodings options workspace
      (s, effects, none)
  | .configure settings =>
      let (s, effects) := s.configure limit settings
      (s, effects, none)
  | .openDocument uri text => s.put uri text
  | .change uri texts =>
      match texts.getLast? with
      | none => (s, {}, none)
      | some text => s.put uri text
  | .close uri =>
      let (s, log) := s.call (.close uri)
      let sent := s.publish uri []
      (s, { sent with log := log ++ sent.log }, none)
  | .analyze uri => (s, {}, s.analysisOf uri)
  | .complete uri position =>
      (s, {}, (s.store.snapshot? uri).map fun snap =>
        .completion snap s.units s.settings.includeBuiltins position)
  | .shutdown =>
      let (s, log) := s.call .clear
      (s, { log := log ++ s.written [⟨.info, source, "on_shutdown: document store cleared"⟩] },
        none)

/-!
# The second part of a request
-/

def failed (s : Session) (log : List Log.Record) (words : String) : Effects :=
  { log := s.written (log ++ [⟨.error, source, words⟩]) }

def finish (limit : Nat) (s : Session) : Job → Effects
  | .analysis snap units =>
      let report := Report.ofText limit units false snap.text snap.uri
      match report.value with
      | .error _ =>
          s.failed report.log ("_analyze_and_publish: analysis of " ++ snap.uri ++ " raised:")
      | .ok r =>
          if s.store.isCurrent snap.uri snap.generation then
            let sent := s.publish snap.uri r.diagnostics
            { sent with log := s.written report.log ++ sent.log }
          else
            { log := s.written (report.log ++
                [⟨.debug, source,
                  "_analyze_and_publish: dropping stale result for " ++ snap.uri ++
                    " (generation " ++ toString snap.generation ++ ")"⟩]) }
  | .completion snap units includeBuiltins position =>
      let found := Completion.atPosition limit units includeBuiltins snap.text snap.uri position
      match found.value with
      | .error _ => s.failed found.log ("completion: " ++ snap.uri ++ " raised:")
      | .ok names => { reply := .completions names, log := s.written found.log }

/-!
# Whole requests
-/

def handle (files : FileTree) (limit : Nat) (s : Session) (r : Request) :
    Session × Effects :=
  match s.start files limit r with
  | (s, effects, none) => (s, effects)
  | (s, effects, some job) =>
      let more := s.finish limit job
      (s, ⟨more.reply, effects.published ++ more.published, effects.log ++ more.log⟩)

def startAll (files : FileTree) (limit : Nat) (s : Session) :
    List Request → Session × List (Effects × Option Job)
  | [] => (s, [])
  | r :: rest =>
      let (s, effects, job) := s.start files limit r
      let (s, more) := startAll files limit s rest
      (s, (effects, job) :: more)

/-- The effects of requests that arrive together; their jobs are worked off in the same order. -/
def handleAll (files : FileTree) (limit : Nat) (s : Session)
    (requests : List Request) : Session × List Effects × List Effects :=
  let (s, started) := s.startAll files limit requests
  let finished := started.map fun (effects, job) =>
    match job with
    | none => { reply := effects.reply }
    | some job => s.finish limit job
  (s, started.map Prod.fst, finished)

end Session
end TypedAnt
