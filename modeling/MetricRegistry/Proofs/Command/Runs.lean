import MetricRegistry.Command.Run
import MetricRegistry.Proofs.Command.Meaning
import MetricRegistry.Proofs.Command.Rendering
import MetricRegistry.Proofs.Host.Databases
import MetricRegistry.Proofs.Registry.Undisturbed

/-!
# Runs of the command line

Every run of the command line is a process that finds nothing of the ones before but the file of the
database. What its arguments ask for (`Job.Asks`) and the text that it prints (`Wish.Tells`) are
said by the meaning of command lines and by the looks of responses. `Mirrors` says that a workspace
has in a table of the database what cells hold, as nothing is held where there is no file yet. One
run keeps this up with the handler that answers the same request on the cells (`Job.run_mirrors`);
by induction on the jobs, all runs do (`runs_mirror`). The versions of a table have 63 bits and
those in memory are not limited, which makes no difference where the versions in memory fit
(`alone_askAll_limited`). Each run makes a version at most one higher than all before, so they fit
for the first 2⁶³ runs (`asked_below`). `runs_agree` compares the runs with one handler and an empty
store in memory.
-/

namespace MetricRegistry.Command

open Workspace (host)

/-! ## The parts of a run -/

section Parts

variable {w v : Workspace} {path : Path} {l : Location} {f : DatabaseFile} {file : String}

/-- Settings that can work are those of a run, with what its options put in their place. -/
lemma run_settingsOf {line : Line} {s : Settings}
    (loads : (host.loadSettings line.config).run v = (.ok s, v))
    (valid : (line.override s).validate = .ok ()) :
    (settingsOf host line).run v = (.ok (line.override s), v) := by
  rw [settingsOf, StateM.run_bind_of_run loads]
  simp [valid]
  rfl

/-- The text of a request, where a dash stands for the standard input. -/
def bodyIn (v : Workspace) (file : String) : Except ReadFault String :=
  if file == "-" then .ok v.input else v.readText file

/-- The text of a request is read without changing anything. -/
lemma run_readBody (v : Workspace) (file : String) :
    (readBody host file).run v = (bodyIn v file, v) := by
  unfold readBody bodyIn
  split <;> rfl

/-- The request of an errand, or why it cannot be read. -/
def requestIn (v : Workspace) : Errand → Except Failure Request
  | .request r => .ok r
  | .apply file => do
    let body ← (bodyIn v file).mapError .reading
    (Request.ofJson (Text.utf8 body)).mapError (.registry ∘ .serialization)

/-- A request is read without changing anything. -/
lemma run_readRequest (v : Workspace) (errand : Errand) :
    (readRequest host errand).run v = (requestIn v errand, v) := by
  cases errand with
  | request r => rfl
  | apply file =>
    rw [readRequest, StateM.run_bind_of_run (run_readBody v file), requestIn]
    cases bodyIn v file with
    | error fault => rfl
    | ok body => rfl

/-- The request in a file can be read if its text can and spells one. -/
lemma toOption_requestIn_apply (v : Workspace) (file : String) :
    (requestIn v (.apply file)).toOption
      = (bodyIn v file).toOption.bind fun text => (Request.ofJson (Text.utf8 text)).toOption := by
  rw [requestIn]
  cases bodyIn v file with
  | error fault => rfl
  | ok text => cases read : Request.ofJson (Text.utf8 text) <;>
      simp [Except.mapError, Except.toOption, bind, Except.bind, read]

/-- The same requests can be read beside a database. -/
lemma requestIn_extends (free : w.lookAt path = .nothing .notFound) (ext : w.Extends path f v)
    (errand : Errand) : (requestIn v errand).toOption = (requestIn w errand).toOption := by
  cases ext with
  | absent => rfl
  | present filled =>
    cases errand with
    | request r => rfl
    | apply file =>
      have bodies : (bodyIn (w.setDatabase path f) file).toOption = (bodyIn w file).toOption := by
        unfold bodyIn
        split
        · rfl
        · exact Workspace.readText_setDatabase free filled file
      rw [toOption_requestIn_apply, toOption_requestIn_apply, bodies]

/-- A request is answered on a table as it is on cells, and other tables stay. -/
lemma run_serve {s : Settings} {retryer : Retryer} (retries : s.retryer = .ok retryer)
    (filed : s.store.backend = .sqlite)
    (located : Location.ofName? (s.store.path.getD "") = some l)
    (fresh : w.Fresh path l) (ext : w.Extends path f v) (usable : f.Usable l s.store.table)
    (named : Database.validateTable s.store.table = .ok ())
    (free : Database.isReserved s.store.table = false) (r : Request) :
    ∃ answer f', (serve host s r).run v = (answer, w.setDatabase path f')
      ∧ f'.Usable l s.store.table ∧ f'.tables ≠ []
      ∧ (∀ other, Database.fold other ≠ Database.fold s.store.table →
        f'.tables.table other = f.tables.table other)
      ∧ (ExceptT.run (handle retryer r)).alone true (f.tables.table s.store.table).cells
        = (answer, (f'.tables.table s.store.table).cells) := by
  have opened : (host.openStore s.store).run v
      = (.ok (Workspace.tableStore (Workspace.databaseAt · path) (Workspace.setDatabase path) l
        s.store.table), w.setDatabase path (f.opened l s.store.table)) := by
    rw [Host.openStore, filed]
    dsimp only
    rw [located]
    exact fresh.openDatabase ext usable named free
  obtain ⟨answer, f', run, usable', filled, others, alone⟩ := Workspace.run_tableStore
    (ExceptT.run (handle retryer r)) fresh.writable usable.opened
  refine ⟨answer, f', ?_, usable', filled (Database.setTable_ne_nil _ _ _), fun other ne => ?_, ?_⟩
  · rw [serve, StateM.run_bind_of_run opened, retries]
    exact run
  · rw [others other ne]
    exact Database.table_setTable_of_ne ne _ _
  · rw [DatabaseFile.opened, Database.table_setTable] at alone
    exact alone

/-- The ending of a run that got an answer. -/
def Ending.ofAnswer (style : Style) : Except RegistryError Response → Ending
  | .ok response => .done (shown style response)
  | .error e => .failed (.registry e)

variable {line : Line} {s : Settings}

/-- A run that cannot read its request fails before it looks for the store. -/
lemma run_perform_error {failure : Failure}
    (settings : (settingsOf host line).run v = (.ok s, v))
    (unread : requestIn v line.errand = .error failure) :
    (perform host line).run v = (.failed failure, v) := by
  rw [perform, StateM.run_bind_of_run settings]
  dsimp only
  rw [StateM.run_bind_of_run (run_readRequest v line.errand), unread]
  rfl

/-- A run that can read its request ends with the answer to it. -/
lemma run_perform_ok {v' : Workspace} {r : Request} {answer : Except RegistryError Response}
    (settings : (settingsOf host line).run v = (.ok s, v))
    (read : requestIn v line.errand = .ok r) (served : (serve host s r).run v = (answer, v')) :
    (perform host line).run v = (.ofAnswer line.style answer, v') := by
  rw [perform, StateM.run_bind_of_run settings]
  dsimp only
  rw [StateM.run_bind_of_run (run_readRequest v line.errand), read]
  dsimp only
  rw [StateM.run_bind_of_run served]
  cases answer <;> rfl

/-- A run ends as what its command line asks for does. -/
lemma run_of_perform {arguments : List String} {ending : Ending} {v' : Workspace}
    (parsed : Line.parse (v.environment.lookup "SCHEMAREG_CONFIG")
      (v.environment.lookup "SCHEMAREG_DB") arguments = .ok line)
    (performed : (perform host line).run v = (ending, v')) :
    (run host arguments).run v = (ending.exit, v') := by
  have look (name : String) : (host.environment name).run v = (v.environment.lookup name, v) := rfl
  rw [run, StateM.run_bind_of_run (look _), StateM.run_bind_of_run (look _), parsed]
  dsimp only
  rw [StateM.run_bind_of_run performed]
  rfl

end Parts

/-! ## Jobs -/

/-- A process to be run: the arguments of its command line, and its standard input. -/
structure Job where
  arguments : List String
  input : String
  deriving DecidableEq

/-- Runs the command line of a job in a process of its own. -/
def Job.run (job : Job) : StateM Workspace Exit := do
  modify (·.withInput job.input)
  Command.run host job.arguments

/-- What is wished for: an answer to a request, if there is one that can be read, and the style in
which it is to be shown. -/
structure Wish where
  style : Style
  request : Option Request
  deriving DecidableEq

/-- The name of a file stands for a text: a dash for the standard input, and any other name for what
the file contains. -/
inductive Sends (v : Workspace) : String → String → Prop where
  | input :
    Sends v "-" v.input
  | file {file text} :
    file ≠ "-" →
    v.Contains file text →
    Sends v file text

/-- An errand stands for a request, or for none if there is no text or the text spells none. -/
inductive Errand.Means (v : Workspace) : Errand → Option Request → Prop where
  | request {r} :
    Errand.Means v (.request r) (some r)
  | applied {file text r} :
    Sends v file text →
    Request.ofJson (Text.utf8 text) = .ok r →
    Errand.Means v (.apply file) (some r)
  | garbled {file text fault} :
    Sends v file text →
    Request.ofJson (Text.utf8 text) = .error fault →
    Errand.Means v (.apply file) none
  | unreadable {file} :
    (∀ text, ¬ Sends v file text) →
    Errand.Means v (.apply file) none

/-- A job asks for what its arguments spell. -/
inductive Job.Asks (w : Workspace) (job : Job) : Wish → Prop where
  | intro {line : Line} {request} :
    Line.Spelled (w.environment.lookup "SCHEMAREG_CONFIG") (w.environment.lookup "SCHEMAREG_DB")
      job.arguments line →
    line.errand.Means (w.withInput job.input) request →
    Job.Asks w job ⟨line.style, request⟩

/-- Asks a handler for what is wished for. -/
def Wish.ask (retryer : Retryer) (wish : Wish) :
    Program (Option (Except RegistryError Response)) :=
  match wish.request with
  | some r => return some (← ExceptT.run (handle retryer r))
  | none => return none

/-- The exit of a run tells the answer, or that nothing was asked. -/
inductive Wish.Tells (wish : Wish) : Option (Except RegistryError Response) → Exit → Prop where
  | done {response text} :
    Renders wish.style response text →
    Wish.Tells wish (some (.ok response)) ⟨0, text, ""⟩
  | failed {e : RegistryError} :
    Wish.Tells wish (some (.error e)) ⟨1, "", "error: " ++ e.message ++ "\n"⟩
  | unread {reason} :
    Wish.Tells wish none ⟨1, "", "error: " ++ reason ++ "\n"⟩

/-! ## Setups -/

/-- What several command lines have in common. -/
structure Setup where
  config : Option String
  database : String
  attempts : ℕ

/-- A job has a command line with a setup. -/
def Setup.Takes (setup : Setup) (w : Workspace) (job : Job) : Prop :=
  ∃ line, Line.parse (w.environment.lookup "SCHEMAREG_CONFIG")
      (w.environment.lookup "SCHEMAREG_DB") job.arguments = .ok line
    ∧ line.config = setup.config ∧ line.database = some setup.database
    ∧ line.retries = some setup.attempts

/-- What several command lines have in common lets them run: there is an attempt at least, the
database can be made where its name leads, the settings can be loaded with and without it, and its
table has a name that a database takes. -/
structure Setup.Works (setup : Setup) (w : Workspace) (path : Path) (l : Location) (s : Settings) :
    Prop where
  attempts_pos : 0 < setup.attempts
  located : Location.ofName? setup.database = some l
  fresh : w.Fresh path l
  loads : ∀ input f v, (w.withInput input).Extends path f v →
    (host.loadSettings setup.config).run v = (.ok s, v)
  named : Database.validateTable s.store.table = .ok ()
  unreserved : Database.isReserved s.store.table = false

/-- The handler that the command lines set up, each in its process. -/
def Setup.Works.retryer {setup : Setup} {w : Workspace} {path : Path} {l : Location} {s : Settings}
    (works : setup.Works w path l s) : Retryer :=
  ⟨setup.attempts, s.backoffMillis, works.attempts_pos⟩

/-! ## Wishes -/

section Wishes

variable {w v : Workspace} {job : Job} {wish : Wish}

/-- The text of a request is the one that the name of its file stands for. -/
lemma bodyIn_eq_ok {file text : String} : bodyIn v file = .ok text ↔ Sends v file text := by
  unfold bodyIn
  by_cases dash : file = "-"
  · subst dash
    constructor
    · rintro ⟨⟩
      exact .input
    · rintro (_ | other)
      · rfl
      · exact (other rfl).elim
  · rw [if_neg (by simpa using dash), Workspace.readText_eq_ok]
    constructor
    · exact .file dash
    · rintro (_ | ⟨-, contains⟩)
      · exact (dash rfl).elim
      · exact contains

/-- The request of an errand is the one that it stands for. -/
lemma means_iff {errand : Errand} {request : Option Request} :
    errand.Means v request ↔ (requestIn v errand).toOption = request := by
  cases errand with
  | request r =>
    constructor
    · rintro ⟨⟩
      rfl
    · rintro rfl
      exact .request
  | apply file =>
    rw [toOption_requestIn_apply]
    constructor
    · rintro (_ | ⟨sends, read⟩ | ⟨sends, read⟩ | silent)
      · simp [bodyIn_eq_ok.mpr sends, read, Except.toOption]
      · simp [bodyIn_eq_ok.mpr sends, read, Except.toOption]
      · cases body : bodyIn v file with
        | error fault => rfl
        | ok text => exact (silent text (bodyIn_eq_ok.mp body)).elim
    · rintro rfl
      cases body : bodyIn v file with
      | error fault =>
        refine .unreadable fun text sends => ?_
        rw [bodyIn_eq_ok.mpr sends] at body
        cases body
      | ok text =>
        have sends := bodyIn_eq_ok.mp body
        simp only [Except.toOption, Option.bind_some]
        cases read : Request.ofJson (Text.utf8 text) with
        | error fault => exact .garbled sends read
        | ok r => exact .applied sends read

/-- A job whose command line is read asks for one thing. -/
lemma Job.asks_iff {line : Line} (parsed : Line.parse (w.environment.lookup "SCHEMAREG_CONFIG")
      (w.environment.lookup "SCHEMAREG_DB") job.arguments = .ok line) :
    job.Asks w wish
      ↔ wish = ⟨line.style, (requestIn (w.withInput job.input) line.errand).toOption⟩ := by
  constructor
  · rintro ⟨spelled, means⟩
    rw [← parse_eq_ok, parsed] at spelled
    cases spelled
    rw [means_iff.mp means]
  · rintro rfl
    exact .intro (parse_eq_ok.mp parsed) (means_iff.mpr rfl)

end Wishes

/-! ## One run -/

/-- A workspace holds in a table what cells hold. -/
inductive Mirrors (w : Workspace) (path : Path) (l : Location) (table : String) (cs : Cells)
    (v : Workspace) : Prop where
  | intro {input : String} {f : DatabaseFile} :
    (w.withInput input).Extends path f v →
    f.Usable l table →
    (f.tables.table table).cells = cs →
    Mirrors w path l table cs v

section Steps

variable {setup : Setup} {w v : Workspace} {path : Path} {l : Location} {s : Settings} {cs : Cells}
variable {retryer : Retryer} {limited : Bool}

/-- The settings can work with what the command line of a job puts in their place. -/
lemma Setup.Works.override_valid (works : setup.Works w path l s) {line : Line}
    (retried : line.retries = some setup.attempts) (stored : line.database = some setup.database) :
    (line.override s).validate = .ok () := by
  have some : s.store.table.isEmpty = false := by
    by_contra empty
    rw [Bool.not_eq_false, String.isEmpty_iff] at empty
    have named := works.named
    simp [empty, Database.validateTable, Database.isPlainName] at named
  have pos := works.attempts_pos
  simp [Line.override, retried, stored, Settings.validate, Nat.ne_of_gt pos, some]

/-- The handler of a run is the one of the setup. -/
lemma Setup.Works.override_retryer (works : setup.Works w path l s) {line : Line}
    (retried : line.retries = some setup.attempts) :
    (line.override s).retryer = .ok works.retryer := by
  have pos := works.attempts_pos
  simp [Line.override, retried, Settings.retryer, Retryer.ofAttempts, pos, Setup.Works.retryer]

/-- A run of a job ends as what its command line asks for does. -/
lemma Job.run_of_perform {job : Job} {line : Line} {ending : Ending} {v' : Workspace}
    (parsed : Line.parse (v.environment.lookup "SCHEMAREG_CONFIG")
      (v.environment.lookup "SCHEMAREG_DB") job.arguments = .ok line)
    (performed : (perform host line).run (v.withInput job.input) = (ending, v')) :
    job.run.run v = (ending.exit, v') := by
  have given : (modify (·.withInput job.input) : StateM Workspace PUnit).run v
      = ((), v.withInput job.input) := rfl
  rw [Job.run, StateM.run_bind_of_run given]
  exact Command.run_of_perform parsed performed

section Exits

variable {wish : Wish} {exit : Exit}

/-- A response is told by showing it. -/
lemma Wish.tells_ok {response : Response} : wish.Tells (some (.ok response)) exit
    ↔ exit = ⟨0, shown wish.style response, ""⟩ := by
  constructor
  · rintro ⟨rendered⟩
    rw [renders_iff.mp rendered]
  · rintro rfl
    exact .done (renders_iff.mpr rfl)

/-- An error is told by its message. -/
lemma Wish.tells_error {e : RegistryError} : wish.Tells (some (.error e)) exit
    ↔ exit = ⟨1, "", "error: " ++ e.message ++ "\n"⟩ := by
  constructor
  · rintro ⟨⟩
    rfl
  · rintro rfl
    exact .failed

/-- That nothing was asked is told with a reason. -/
lemma Wish.tells_none :
    wish.Tells none exit ↔ ∃ reason, exit = ⟨1, "", "error: " ++ reason ++ "\n"⟩ := by
  constructor
  · rintro ⟨⟩
    exact ⟨_, rfl⟩
  · rintro ⟨reason, rfl⟩
    exact .unread

/-- An ending with an answer tells it. -/
lemma Wish.Tells.answer (wish : Wish) (answer : Except RegistryError Response) :
    wish.Tells (some answer) (Ending.ofAnswer wish.style answer).exit := by
  cases answer with
  | ok response => exact Wish.tells_ok.mpr rfl
  | error e => exact Wish.tells_error.mpr rfl

end Exits

/-- Where no request can be read none is asked. -/
lemma Wish.ask_of_none {wish : Wish} (unread : wish.request = none) :
    wish.ask retryer = .done none := by
  rw [ask, unread]
  rfl

/-- Where a request can be read it is asked. -/
lemma Wish.alone_ask_of_some {wish : Wish} {r : Request} (read : wish.request = some r) :
    (wish.ask retryer).alone limited cs
      = (some ((ExceptT.run (handle retryer r)).alone limited cs).1,
        ((ExceptT.run (handle retryer r)).alone limited cs).2) := by
  rw [ask, read]
  exact Program.alone_bind _ _

/-- A run tells what a handler answers, leaves what it leaves, and changes nothing if it fails. -/
lemma Job.run_mirrors (works : setup.Works w path l s)
    (mirrors : Mirrors w path l s.store.table cs v) {job : Job} {wish : Wish}
    (taken : setup.Takes w job) (asks : job.Asks w wish) :
    ∃ exit v', job.run.run v = (exit, v')
      ∧ wish.Tells ((wish.ask works.retryer).alone true cs).1 exit
      ∧ Mirrors w path l s.store.table ((wish.ask works.retryer).alone true cs).2 v'
      ∧ (exit.code = 1 → ∀ table, ((v'.databaseAt path).tables.table table).cells
        = ((v.databaseAt path).tables.table table).cells) := by
  obtain @⟨input, f, ext, usable, rfl⟩ := mirrors
  obtain ⟨line, parsed, configured, stored, retried⟩ := taken
  obtain rfl := (asks_iff parsed).mp asks
  have ext' := ext.withInput job.input
  have fresh := works.fresh.withInput job.input
  have loads := works.loads _ _ _ ext'
  rw [← configured] at loads
  have settings := run_settingsOf loads (works.override_valid retried stored)
  have same := requestIn_extends fresh.free ext' line.errand
  have environment : v.environment = w.environment := ext.environment
  rw [← environment] at parsed
  -- a request that cannot be read is asked of nobody, and the file is not opened
  cases read : requestIn (v.withInput job.input) line.errand with
  | error failure =>
    rw [read] at same
    rw [Wish.ask_of_none same.symm, Program.alone_done]
    exact ⟨_, _, run_of_perform parsed (run_perform_error settings read), .unread,
      .intro ext' usable rfl, fun _ _ => rfl⟩
  | ok r =>
    -- the options replace the store but keep the name of its table
    have filed : (line.override s).store = { s.store with
        backend := .sqlite, path := some setup.database } := by
      simp [Line.override, stored]
    obtain ⟨answer, f', served, usable', filled, others, alone⟩ :=
      run_serve (works.override_retryer retried) (by rw [filed])
        (by rw [filed]; exact works.located)
        fresh ext' (by rw [filed]; exact usable) (by rw [filed]; exact works.named)
        (by rw [filed]; exact works.unreserved) r
    rw [filed] at usable' others alone
    rw [read] at same
    rw [Wish.alone_ask_of_some same.symm, alone]
    refine ⟨_, _, run_of_perform parsed (run_perform_ok settings read served), .answer _ _,
      .intro (.present filled) usable' rfl, fun code table => ?_⟩
    rw [Workspace.databaseAt_setDatabase, ext.databaseAt (works.fresh.withInput input).free]
    cases answer with
    | ok response => cases code
    | error e =>
      -- in the table of the job a failure leaves the cells, and no other table is written
      by_cases own : Database.fold table = Database.fold s.store.table
      · rw [Database.table_congr own, Database.table_congr own]
        exact (honest_handle works.retryer r).alone_error alone
      · rw [others table own]

/-! ## All runs -/

/-- Asks one handler for several things, one after the other. -/
def askAll (retryer : Retryer) (wishes : List Wish) :
    Program (List (Wish × Option (Except RegistryError Response))) :=
  wishes.mapM fun wish => return (wish, ← wish.ask retryer)

/-- What is asked first is answered first. -/
lemma alone_askAll_cons (wish : Wish) (wishes : List Wish) :
    (askAll retryer (wish :: wishes)).alone limited cs
      = ((wish, ((wish.ask retryer).alone limited cs).1)
          :: ((askAll retryer wishes).alone limited ((wish.ask retryer).alone limited cs).2).1,
        ((askAll retryer wishes).alone limited ((wish.ask retryer).alone limited cs).2).2) := by
  simp only [askAll, Program.alone_mapM_cons, Program.alone_bind]
  rfl

/-- Where the versions fit that are held in the end, no limit of theirs has been met. -/
lemma alone_askAll_limited {wishes : List Wish}
    (fits : ((askAll retryer wishes).alone false cs).2.Below (UInt64.size / 2)) :
    (askAll retryer wishes).alone true cs = (askAll retryer wishes).alone false cs := by
  induction wishes generalizing cs with
  | nil => rfl
  | cons wish wishes ih =>
    rw [alone_askAll_cons] at fits
    have first : (wish.ask retryer).alone true cs = (wish.ask retryer).alone false cs := by
      cases read : wish.request with
      | none => rw [Wish.ask_of_none read, Program.alone_done, Program.alone_done]
      | some r =>
        have low := (Program.alone_rises (askAll retryer wishes) false _).below fits
        rw [Wish.alone_ask_of_some read] at low
        rw [Wish.alone_ask_of_some read, Wish.alone_ask_of_some read,
          (honest_handle retryer r).alone_limited low nofun]
    rw [alone_askAll_cons, alone_askAll_cons, first, ih fits]

/-- Each request raises the versions by one at most. -/
lemma alone_askAll_below {bound : ℕ} (below : cs.Below bound) (wishes : List Wish) :
    ((askAll retryer wishes).alone limited cs).2.Below (bound + wishes.length) := by
  induction wishes generalizing cs bound with
  | nil => exact below
  | cons wish wishes ih =>
    have first : ((wish.ask retryer).alone limited cs).2.Below (bound + 1) := by
      cases read : wish.request with
      | none =>
        rw [Wish.ask_of_none read, Program.alone_done]
        exact below.mono (Nat.le_succ bound)
      | some r =>
        rw [Wish.alone_ask_of_some read]
        exact (honest_handle retryer r).alone_below below nofun
    rw [alone_askAll_cons, List.length_cons]
    exact (ih first).mono (by omega)

/-- Runs tell one after the other what one handler answers. -/
lemma runs_mirror (works : setup.Works w path l s) {jobs : List Job} {wishes : List Wish}
    (taken : ∀ job ∈ jobs, setup.Takes w job) (asks : List.Forall₂ (Job.Asks w) jobs wishes)
    (mirrors : Mirrors w path l s.store.table cs v) :
    ∃ exits v', (jobs.mapM Job.run).run v = (exits, v')
      ∧ List.Forall₂ (fun told exit => told.1.Tells told.2 exit)
        ((askAll works.retryer wishes).alone true cs).1 exits
      ∧ Mirrors w path l s.store.table ((askAll works.retryer wishes).alone true cs).2 v' := by
  induction asks generalizing v cs with
  | nil => exact ⟨[], v, rfl, .nil, mirrors⟩
  | @cons job wish jobs wishes asks _ ih =>
    obtain ⟨takes, taken⟩ := List.forall_mem_cons.mp taken
    obtain ⟨exit, v₁, run, tells, mirrors₁, -⟩ := job.run_mirrors works mirrors takes asks
    obtain ⟨exits, v', runs, rest, mirrors'⟩ := ih taken mirrors₁
    rw [alone_askAll_cons]
    refine ⟨exit :: exits, v', ?_, .cons tells rest, mirrors'⟩
    rw [List.mapM_cons, StateM.run_bind_of_run run, StateM.run_bind_of_run runs]
    rfl

/-- Where there is no file yet nothing is held. -/
lemma mirrors_empty {table : String} : Mirrors w path l table (fun _ => none) w :=
  .intro (.absent : (w.withInput w.input).Extends path {} w) DatabaseFile.usable_empty rfl

/-- What is mirrored is what the table holds. -/
lemma Mirrors.cells_eq (works : setup.Works w path l s)
    (mirrors : Mirrors w path l s.store.table cs v) :
    ((v.databaseAt path).tables.table s.store.table).cells = cs := by
  obtain @⟨input, f, ext, -, same⟩ := mirrors
  rw [ext.databaseAt (works.fresh.withInput input).free, same]

/-- A job whose command line is read asks for something. -/
lemma Setup.Takes.asks {job : Job} (taken : setup.Takes w job) : ∃ wish, job.Asks w wish := by
  obtain ⟨line, parsed, -⟩ := taken
  exact ⟨_, (Job.asks_iff parsed).mpr rfl⟩

/-- Jobs whose command lines are read ask for something each. -/
lemma exists_wishes {jobs : List Job} (taken : ∀ job ∈ jobs, setup.Takes w job) :
    ∃ wishes, List.Forall₂ (Job.Asks w) jobs wishes := by
  induction jobs with
  | nil => exact ⟨[], .nil⟩
  | cons job jobs ih =>
    obtain ⟨takes, taken⟩ := List.forall_mem_cons.mp taken
    obtain ⟨wish, asks⟩ := takes.asks
    obtain ⟨wishes, rest⟩ := ih taken
    exact ⟨wish :: wishes, .cons asks rest⟩

end Steps

/-- One handler answers on an empty store in memory as on no cells at all. -/
lemma run_askAll (retryer : Retryer) (wishes : List Wish) :
    ∃ answers b, ((askAll retryer wishes).run Backing.store).run (.memory []) = (answers, b)
      ∧ (askAll retryer wishes).alone false (fun _ => none) = (answers, b.cells) := by
  obtain ⟨answers, b, run, -, -, alone⟩ :=
    @Backing.run_alone _ (.memory []) trivial (askAll retryer wishes)
  exact ⟨answers, b, run, alone⟩

/-- The versions in memory fit into 63 bits for the first 2⁶³ requests. -/
lemma asked_below (retryer : Retryer) {wishes : List Wish}
    (few : wishes.length ≤ UInt64.size / 2) :
    (((askAll retryer wishes).run Backing.store).run (.memory [])).2.cells.Below
      (UInt64.size / 2) := by
  obtain ⟨answers, b, run, alone⟩ := run_askAll retryer wishes
  have nothing : Cells.Below (fun _ => none) 0 := nofun
  have low : ((askAll retryer wishes).alone false (fun _ => none)).2.Below (0 + wishes.length) :=
    alone_askAll_below nothing wishes
  rw [alone] at low
  rw [run]
  exact low.mono (by rwa [Nat.zero_add])

/-- Command lines that are run one after the other, each in a process of its own, tell what one
handler answers to the requests that they ask for on an empty store in memory, and leave in the
table of their database what it leaves in the memory, unless a version there gets too large for a
table. A run that fails changes no document. -/
theorem runs_agree {setup : Setup} {w : Workspace} {path : Path} {l : Location} {s : Settings}
    (works : setup.Works w path l s) {jobs : List Job} (taken : ∀ job ∈ jobs, setup.Takes w job) :
    let runs (jobs : List Job) := (jobs.mapM Job.run).run w
    (∃ wishes, List.Forall₂ (Job.Asks w) jobs wishes)
      ∧ (∀ wishes, List.Forall₂ (Job.Asks w) jobs wishes →
        let asked := ((askAll works.retryer wishes).run Backing.store).run (.memory [])
        asked.2.cells.Below (UInt64.size / 2) →
          List.Forall₂ (fun told exit => told.1.Tells told.2 exit) asked.1 (runs jobs).1
            ∧ (((runs jobs).2.databaseAt path).tables.table s.store.table).cells = asked.2.cells)
      ∧ ∀ before job after, jobs = before ++ job :: after →
        let v := (runs before).2
        let last := job.run.run v
        last.1.code = 1 → ∀ table, ((last.2.databaseAt path).tables.table table).cells
          = ((v.databaseAt path).tables.table table).cells := by
  intro runs
  refine ⟨exists_wishes taken, ?_, ?_⟩
  · intro wishes asks asked fits
    obtain ⟨answers, b, asked_run, alone⟩ := run_askAll works.retryer wishes
    have asked_eq : asked = (answers, b) := asked_run
    obtain ⟨exits, v', run, tells, mirrors⟩ := runs_mirror works taken asks mirrors_empty
    have runs_eq : runs jobs = (exits, v') := run
    rw [asked_eq] at fits ⊢
    rw [alone_askAll_limited (alone ▸ fits), alone] at tells mirrors
    rw [runs_eq]
    exact ⟨tells, mirrors.cells_eq works⟩
  · rintro before job after rfl
    obtain ⟨taken, rest⟩ := List.forall_mem_append.mp taken
    obtain ⟨takes, -⟩ := List.forall_mem_cons.mp rest
    -- the runs before leave a workspace that mirrors the handler, where one run is known
    obtain ⟨wishes, asks⟩ := exists_wishes taken
    obtain ⟨wish, asks'⟩ := takes.asks
    obtain ⟨exits, v, run, -, mirrors⟩ := runs_mirror works taken asks mirrors_empty
    obtain ⟨exit, v', last, -, -, fails⟩ := job.run_mirrors works mirrors takes asks'
    have before_eq : runs before = (exits, v) := run
    rw [before_eq]
    dsimp only
    rw [last]
    exact fails

/-- A metric is created by a request in a file and gets a field, and both are shown; then what is
there is created once more, and something is asked for that is no request. -/
theorem runs_agree_session :
    let data := Text.utf8 "data"
    let name := Text.utf8 "registry.db"
    let w := ({ directory := [data] } : Workspace).addFile "/data/clicks.json"
      ("\x7b\"op\":\"create_metric\",\"org_id\":\"acme\",\"metric_name\":\"clicks\","
        ++ "\"aliases\":[\"taps\"]\x7d")
    let setup : Setup := ⟨none, "registry.db", 1⟩
    let common := ["--db", "registry.db", "--retries=1"]
    let jobs : List Job := [⟨common ++ ["create-org", "acme"], ""⟩,
      ⟨["apply", "clicks.json"] ++ common, ""⟩,
      ⟨["create-field", "acme", "taps", "count", "--type", "long"] ++ common, ""⟩,
      ⟨common ++ ["metric", "acme", "clicks"], ""⟩,
      ⟨common ++ ["--format", "json", "tenant", "acme"], ""⟩,
      ⟨common ++ ["create-org", "acme"], ""⟩, ⟨common ++ ["apply", "-"], "\x7b\"op\""⟩]
    let wishes : List Wish := [⟨.text, some (.createOrg (some "acme"))⟩,
      ⟨.text, some (.createMetric (some "acme") (some "clicks") ["taps"])⟩,
      ⟨.text, some (.createField (some "acme") (some "taps") (some "count") (some .long) [])⟩,
      ⟨.text, some (.getMetric (some "acme") (some "clicks"))⟩,
      ⟨.json, some (.getTenant (some "acme"))⟩, ⟨.text, some (.createOrg (some "acme"))⟩,
      ⟨.text, none⟩]
    setup.Works w [data, name] ⟨some name, .create, .log⟩ {}
      ∧ (∀ job ∈ jobs, setup.Takes w job) ∧ List.Forall₂ (Job.Asks w) jobs wishes
      ∧ ∃ reason, ((jobs.mapM Job.run).run w).1 = [⟨0, "acme: committed version 0\n", ""⟩,
        ⟨0, "acme: committed version 1\n", ""⟩, ⟨0, "acme: committed version 2\n", ""⟩,
        ⟨0, "acme (version 2)\n  [1] clicks (aliases: taps)\n      [1] count: LONG\n", ""⟩,
        ⟨0, "\x7b\n  \"result\": \"tenant\",\n  \"org_id\": \"acme\",\n"
          ++ "  \"metric_key_aliases\": [],\n  \"timestamp_patterns\": []\n\x7d\n", ""⟩,
        ⟨1, "", "error: org 'acme' already exists\n"⟩, ⟨1, "", "error: " ++ reason ++ "\n"⟩] := by
  intro data name w setup common jobs wishes
  have fresh : w.Fresh [data, name] ⟨some name, .create, .log⟩ :=
    ⟨rfl, by decide, ⟨name, [data], name, rfl, by decide +kernel, by decide +kernel, rfl⟩,
      by decide, rfl, by decide +kernel⟩
  have works : setup.Works w [data, name] ⟨some name, .create, .log⟩ {} := by
    refine ⟨by decide, by decide +kernel, fresh, fun input f v ext => ?_, by decide +kernel,
      by decide +kernel⟩
    cases ext with
    | absent => rfl
    | present filled => rfl
  have session {job : Job} (style : Style) (errand : Errand) {request : Option Request}
      (parsed : (Line.parse none none job.arguments).toOption
        = some ⟨none, some "registry.db", some 1, style, errand⟩)
      (means : (requestIn (w.withInput job.input) errand).toOption = request) :
      setup.Takes w job ∧ job.Asks w ⟨style, request⟩ := by
    have parsed : Line.parse (w.environment.lookup "SCHEMAREG_CONFIG")
        (w.environment.lookup "SCHEMAREG_DB") job.arguments
        = .ok ⟨none, some "registry.db", some 1, style, errand⟩ :=
      Except.toOption_eq_some.mp parsed
    exact ⟨⟨_, parsed, rfl, rfl, rfl⟩, (Job.asks_iff parsed).mpr (by rw [← means])⟩
  have each : List.Forall₂ (fun job wish => setup.Takes w job ∧ job.Asks w wish) jobs wishes :=
    .cons (session .text (.request (.createOrg (some "acme"))) (by decide +kernel) rfl)
      (.cons (session .text (.apply "clicks.json") (by decide +kernel) (by decide +kernel))
      (.cons (session .text (.request
          (.createField (some "acme") (some "taps") (some "count") (some .long) []))
        (by decide +kernel) rfl)
      (.cons (session .text (.request (.getMetric (some "acme") (some "clicks")))
        (by decide +kernel) rfl)
      (.cons (session .json (.request (.getTenant (some "acme"))) (by decide +kernel) rfl)
      (.cons (session .text (.request (.createOrg (some "acme"))) (by decide +kernel) rfl)
      (.cons (session .text (.apply "-") (by decide +kernel) (by decide +kernel)) .nil))))))
  obtain ⟨taken, asks⟩ := (List.forall₂_and_left jobs wishes).mp each
  refine ⟨works, taken, asks, ?_⟩
  have few : wishes.length ≤ UInt64.size / 2 := by decide
  obtain ⟨agree, -⟩ := (runs_agree works taken).2.1 wishes asks (asked_below _ few)
  have handler : works.retryer = ⟨1, 0, by decide⟩ := rfl
  have answers : (((askAll ⟨1, 0, by decide⟩ wishes).run Backing.store).run (.memory [])).1
      = wishes.zip [some (.ok (.committed "acme" 0 true)), some (.ok (.committed "acme" 1 true)),
        some (.ok (.committed "acme" 2 true)),
        some (.ok (.metric "acme" 2 ⟨1, ⟨"clicks", ["taps"]⟩, ⟨2, [⟨1, ⟨"count", []⟩, .long⟩]⟩⟩)),
        some (.ok (.tenant ⟨"acme", [], []⟩)),
        some (.error (.rejected (.alreadyExists .org "acme"))), none] := by
    decide +kernel
  rw [handler, answers] at agree
  generalize ((jobs.mapM Job.run).run w).1 = exits at agree ⊢
  simp only [wishes, List.zip_cons_cons, List.zip_nil_right, List.forall₂_cons_left_iff,
    List.forall₂_nil_left_iff, Wish.tells_ok, Wish.tells_error, Wish.tells_none] at agree
  obtain ⟨_, _, rfl, ⟨_, _, rfl, ⟨_, _, rfl, ⟨_, _, rfl, ⟨_, _, rfl, ⟨_, _, rfl,
    ⟨_, _, ⟨reason, rfl⟩, rfl, rfl⟩, rfl⟩, rfl⟩, rfl⟩, rfl⟩, rfl⟩, rfl⟩ := agree
  have zero : shown .text (.committed "acme" 0 true) = "acme: committed version 0\n" := by
    decide +kernel
  have one : shown .text (.committed "acme" 1 true) = "acme: committed version 1\n" := by
    decide +kernel
  have two : shown .text (.committed "acme" 2 true) = "acme: committed version 2\n" := by
    decide +kernel
  have clicks : shown .text
      (.metric "acme" 2 ⟨1, ⟨"clicks", ["taps"]⟩, ⟨2, [⟨1, ⟨"count", []⟩, .long⟩]⟩⟩)
      = "acme (version 2)\n  [1] clicks (aliases: taps)\n      [1] count: LONG\n" := by
    decide +kernel
  have acme : shown .json (.tenant ⟨"acme", [], []⟩)
      = "\x7b\n  \"result\": \"tenant\",\n  \"org_id\": \"acme\",\n  \"metric_key_aliases\": [],\n"
        ++ "  \"timestamp_patterns\": []\n\x7d\n" := by
    decide +kernel
  have taken : (RegistryError.rejected (.alreadyExists .org "acme")).message
      = "org 'acme' already exists" := by
    decide +kernel
  refine ⟨reason, ?_⟩
  rw [zero, one, two, clicks, acme, taken]
  rfl

end MetricRegistry.Command
