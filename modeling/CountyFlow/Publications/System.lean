import CountyFlow.Publications.Publication
import CountyFlow.Worker.System

/-!
# Publishers beside workers and reviewers

Any number of calls of `DispatchPublicationService._publish` beside the workers, the API and the
reviewers.  A call is a session: `FOR UPDATE` takes the lock of the task's row, and the transaction
keeps it until it commits, rolls back or closes.  A step of anybody else that writes the row, or inserts
a dispatch or an audit record that references it, waits for the lock; whatever a call reads under it
is frozen, so that it does not matter whether a query reads the latest rows or those of the
transaction's snapshot.
-/

namespace CountyFlow.Publications

open CountyFlow.Lib
open CountyFlow.Worker (Db Dispatch AuditResult)

inductive Commit where
  | commits
  | integrityError
  | fails
  deriving DecidableEq, Repr

/-- What the world contributes to a statement: the clock, `none` when it is not timezone-aware, and the
end of a commit. -/
structure Outcome where
  now : Option ℕ
  commit : Commit
  deriving DecidableEq, Repr

/-- Where a call stands: the statement it makes next, and what it has read. -/
inductive CallState where
  | idle
  | locking (taskId : String) (publisher : Publisher)
  | looking (loaded : LoadedTask) (publisher : Publisher)
  | choosing (loaded : LoadedTask) (publisher : Publisher)
  | auditing (loaded : LoadedTask) (publisher : Publisher) (dispatch : Dispatch)
  | composing (loaded : LoadedTask) (publisher : Publisher) (dispatch : Dispatch) (routeId : String)
  | inserting (loaded : LoadedTask) (publication : DispatchPublication)
  | rereading (taskId : String)
  | finding (loaded : LoadedTask)
  | answering (loaded : LoadedTask) (publication : DispatchPublication) (duplicate : Bool)
  | returned (result : PublicationResult)
  | raised (error : PublicationError)
  deriving DecidableEq, Repr

structure System where
  workers : Worker.System
  references : References
  publications : Table DispatchPublication DispatchPublication.taskId
  locks : List (String × ℕ)
  calls : ℕ → CallState

inductive Action where
  | publish (p : ℕ) (taskId : String) (publisher : Publisher)
  | publishAutomatically (p : ℕ) (taskId : String)
  | advance (p : ℕ) (o : Outcome)
  | fail (p : ℕ)
  | work (action : Worker.Action)
  | auditLate (taskId : String) (auditId : ℕ) (result : AuditResult) (reason : String)
  | refer (references : References)

namespace System

/-- The database of the workers. -/
def db (s : System) : Db := s.workers.world.db

def withDb (s : System) (db : Db) : System :=
  { s with workers := { s.workers with world := { s.workers.world with db := db } } }

def goto (s : System) (p : ℕ) (st : CallState) : System :=
  { s with calls := Function.update s.calls p st }

def leave (s : System) (p : ℕ) (st : CallState) : System :=
  { s.goto p st with locks := s.locks.filter fun lock => lock.2 ≠ p }

/-- A call raises; the session is closed. -/
def raise (s : System) (p : ℕ) (error : PublicationError) : System := s.leave p (.raised error)

variable (columns : ℕ → DispatchColumns) (stored : ℕ → ℕ)

/-- The insertion of a publication meets the unique constraints of the table. -/
def insertPublication (s : System) (publication : DispatchPublication) :
    Option (Table DispatchPublication DispatchPublication.taskId) :=
  if publication.dispatchId ∈ s.publications.rows.map DispatchPublication.dispatchId then none
  else s.publications.add (publication.row stored)

/-- The next statement of a call, `none` when it waits for a lock or has ended. -/
def advance (s : System) (p : ℕ) (o : Outcome) : Option System :=
  match s.calls p with
  | .locking taskId publisher =>
    match s.db.tasks.find taskId with
    | none => some (s.raise p .publicationTaskNotFound)
    | some task =>
      if (s.locks.lookup taskId).isSome then none
      else some { s.goto p (.looking ⟨task, s.references.assigneeSubjectId taskId⟩ publisher) with
        locks := (taskId, p) :: s.locks }
  | .looking loaded publisher =>
    match s.publications.find loaded.taskId with
    | some existing => some (s.goto p (.answering loaded existing true))
    | none => some (s.goto p (.choosing loaded publisher))
  | .choosing loaded publisher =>
    match latestDispatch s.db loaded.taskId with
    | none => some (s.raise p .publicationDispatchMissing)
    | some dispatch => some (s.goto p (.auditing loaded publisher dispatch))
  | .auditing loaded publisher dispatch =>
    match latestAudit s.db loaded.taskId dispatch.id with
    | none => some (s.raise p .publicationNotApproved)
    | some audit =>
      if loaded.task.status ∉ publishable ∨ audit.result ≠ .approved then
        some (s.raise p .publicationNotApproved)
      else match (columns dispatch.id).routeId with
        | none => some (s.raise p .publicationRouteMissing)
        | some routeId => some (s.goto p (.composing loaded publisher dispatch routeId))
  | .composing loaded publisher dispatch routeId =>
    match s.references.orders loaded.task.orderId, o.now with
    | none, _ => some (s.raise p .publicationTaskNotFound)
    | some _, none => some (s.raise p (.valueError "publication clock must be timezone-aware"))
    | some order, some now => some (s.goto p (.inserting loaded
        (draft s.references (columns dispatch.id) loaded publisher dispatch order routeId now)))
  | .inserting loaded publication =>
    match o.commit, s.insertPublication stored publication with
    | .fails, _ => some (s.raise p .databaseError)
    | .commits, some publications =>
      some { s.leave p (.answering loaded publication false) with publications := publications }
    | _, _ => some (s.leave p (.rereading loaded.taskId))
  | .rereading taskId =>
    match s.db.tasks.find taskId with
    | none => some (s.raise p .integrityError)
    | some task => some (s.goto p (.finding ⟨task, s.references.assigneeSubjectId taskId⟩))
  | .finding loaded =>
    match s.publications.find loaded.taskId with
    | none => some (s.raise p .integrityError)
    | some publication => some (s.goto p (.answering loaded publication true))
  | .answering loaded publication duplicate =>
    some (s.leave p (.returned (result s.references loaded publication duplicate)))
  | .idle | .returned _ | .raised _ => none

/-- The call is between two statements. -/
def live (s : System) (p : ℕ) : Bool :=
  match s.calls p with
  | .idle | .returned _ | .raised _ => false
  | _ => true

/-- A write of somebody else, which waits for the locks it meets. -/
def write (s : System) (s' : System) : Option System :=
  if ∀ lock ∈ s.locks, Unchanged s.db s'.db lock.1 then some s' else none

/-- An audit record of a worker that had asked for one before another was inserted. -/
def audited (db : Db) (taskId : String) (auditId : ℕ) (result : AuditResult) (reason : String) : Db :=
  match db.tasks.find taskId, db.dispatches.find taskId with
  | some _, some dispatch =>
    { db with audits := db.audits ++ [⟨auditId, taskId, dispatch.id, result, reason⟩] }
  | _, _ => db

variable (config : Worker.WorkerConfig)

/-- The state after an action, `none` when it is not enabled. -/
def step (s : System) : Action → Option System
  | .publish p taskId publisher =>
    if s.calls p = .idle then some (s.goto p (.locking taskId publisher)) else none
  | .publishAutomatically p taskId =>
    if s.calls p = .idle then some (s.goto p (.locking taskId automaticPublisher)) else none
  | .advance p o => s.advance columns stored p o
  | .fail p => if s.live p then some (s.raise p .databaseError) else none
  | .work action =>
    match Worker.System.step config s.workers action with
    | none => none
    | some workers => s.write { s with workers := workers }
  | .auditLate taskId auditId result reason =>
    s.write (s.withDb (audited s.db taskId auditId result reason))
  | .refer references => some { s with references := references }

/-- Where runs begin: any tables, no lock, and no call under way. -/
structure Initial (s : System) : Prop where
  locks : s.locks = []
  calls : ∀ p, s.calls p = .idle

@[simp] theorem calls_goto (s : System) (p : ℕ) (st : CallState) :
    (s.goto p st).calls = Function.update s.calls p st := rfl

end System

/-! ### What a statement does -/

/-- **Every statement of a call**, by what it does. -/
inductive Moves (columns : ℕ → DispatchColumns) (stored : ℕ → ℕ) (s : System) (p : ℕ) :
    CallState → CallState → System → Prop
  | locked {taskId : String} {publisher : Publisher} {loaded : LoadedTask} :
      s.db.tasks.find taskId = some loaded.task → s.locks.lookup taskId = none →
      Moves columns stored s p (.locking taskId publisher) (.looking loaded publisher)
        { s.goto p (.looking loaded publisher) with locks := (taskId, p) :: s.locks }
  | found {loaded : LoadedTask} {publisher : Publisher} {row : DispatchPublication} :
      s.publications.find loaded.taskId = some row →
      Moves columns stored s p (.looking loaded publisher) (.answering loaded row true)
        (s.goto p (.answering loaded row true))
  | missing {loaded : LoadedTask} {publisher : Publisher} :
      s.publications.find loaded.taskId = none →
      Moves columns stored s p (.looking loaded publisher) (.choosing loaded publisher)
        (s.goto p (.choosing loaded publisher))
  | chosen {loaded : LoadedTask} {publisher : Publisher} {dispatch : Dispatch} :
      latestDispatch s.db loaded.taskId = some dispatch →
      Moves columns stored s p (.choosing loaded publisher) (.auditing loaded publisher dispatch)
        (s.goto p (.auditing loaded publisher dispatch))
  | approved {loaded : LoadedTask} {publisher : Publisher} {dispatch : Dispatch}
      {audit : Worker.AuditRecord} {routeId : String} :
      latestAudit s.db loaded.taskId dispatch.id = some audit → audit.result = .approved →
      loaded.task.status ∈ publishable → (columns dispatch.id).routeId = some routeId →
      Moves columns stored s p (.auditing loaded publisher dispatch)
        (.composing loaded publisher dispatch routeId)
        (s.goto p (.composing loaded publisher dispatch routeId))
  | composed {loaded : LoadedTask} {publisher : Publisher} {dispatch : Dispatch} {routeId : String}
      {publication : DispatchPublication} :
      publication.taskId = loaded.taskId → publication.dispatchId = dispatch.id →
      publication.routeId = routeId →
      Moves columns stored s p (.composing loaded publisher dispatch routeId)
        (.inserting loaded publication) (s.goto p (.inserting loaded publication))
  | inserted {loaded : LoadedTask} {publication : DispatchPublication}
      {publications : Table DispatchPublication DispatchPublication.taskId} :
      s.publications.add (publication.row stored) = some publications →
      Moves columns stored s p (.inserting loaded publication) (.answering loaded publication false)
        { s.leave p (.answering loaded publication false) with publications := publications }
  | refused {loaded : LoadedTask} {publication : DispatchPublication} :
      Moves columns stored s p (.inserting loaded publication) (.rereading loaded.taskId)
        (s.leave p (.rereading loaded.taskId))
  | reread {taskId : String} {loaded : LoadedTask} : loaded.taskId = taskId →
      Moves columns stored s p (.rereading taskId) (.finding loaded) (s.goto p (.finding loaded))
  | recovered {loaded : LoadedTask} {row : DispatchPublication} :
      s.publications.find loaded.taskId = some row →
      Moves columns stored s p (.finding loaded) (.answering loaded row true)
        (s.goto p (.answering loaded row true))
  | answered {loaded : LoadedTask} {publication : DispatchPublication} {duplicate : Bool}
      {references : References} :
      Moves columns stored s p (.answering loaded publication duplicate)
        (.returned (result references loaded publication duplicate))
        (s.leave p (.returned (result references loaded publication duplicate)))
  | raised {st : CallState} {error : PublicationError} :
      Moves columns stored s p st (.raised error) (s.leave p (.raised error))

namespace System

variable {columns : ℕ → DispatchColumns} {stored : ℕ → ℕ}

/-- All that one statement of a publication can do. -/
theorem advance_moves {s s' : System} {p : ℕ} {o : Outcome} (h : s.advance columns stored p o = some s') :
    ∃ st, Moves columns stored s p (s.calls p) st s' := by
  unfold advance at h
  generalize s.calls p = st at h ⊢
  cases st with
  | locking taskId publisher =>
    dsimp only at h
    split at h
    · cases h
      exact ⟨_, .raised⟩
    · rename_i task htask
      split at h
      · cases h
      · rename_i hfree
        cases h
        exact ⟨_, .locked htask (Option.not_isSome_iff_eq_none.mp hfree)⟩
  | looking loaded publisher =>
    dsimp only at h
    split at h
    · rename_i row hrow
      cases h
      exact ⟨_, .found hrow⟩
    · rename_i hnone
      cases h
      exact ⟨_, .missing hnone⟩
  | choosing loaded publisher =>
    dsimp only at h
    split at h
    · cases h
      exact ⟨_, .raised⟩
    · rename_i dispatch hdispatch
      cases h
      exact ⟨_, .chosen hdispatch⟩
  | auditing loaded publisher dispatch =>
    dsimp only at h
    split at h
    · cases h
      exact ⟨_, .raised⟩
    · rename_i audit haudit
      split at h
      · cases h
        exact ⟨_, .raised⟩
      · rename_i happroved
        rw [not_or, not_not, not_not] at happroved
        split at h
        · cases h
          exact ⟨_, .raised⟩
        · rename_i routeId hroute
          cases h
          exact ⟨_, .approved haudit happroved.2 happroved.1 hroute⟩
  | composing loaded publisher dispatch routeId =>
    dsimp only at h
    split at h
    · cases h
      exact ⟨_, .raised⟩
    · cases h
      exact ⟨_, .raised⟩
    · cases h
      exact ⟨_, .composed rfl rfl rfl⟩
  | inserting loaded publication =>
    dsimp only at h
    split at h
    · cases h
      exact ⟨_, .raised⟩
    · rename_i publications _ hadd
      cases h
      unfold insertPublication at hadd
      split at hadd
      · cases hadd
      · exact ⟨_, .inserted hadd⟩
    · cases h
      exact ⟨_, .refused⟩
  | rereading taskId =>
    dsimp only at h
    split at h
    · cases h
      exact ⟨_, .raised⟩
    · rename_i task htask
      cases h
      have hid : task.taskId = taskId := Table.find_key htask
      exact ⟨_, .reread hid⟩
  | finding loaded =>
    dsimp only at h
    split at h
    · cases h
      exact ⟨_, .raised⟩
    · rename_i row hrow
      cases h
      exact ⟨_, .recovered hrow⟩
  | answering loaded publication duplicate =>
    cases h
    exact ⟨_, .answered⟩
  | idle => cases h
  | returned r => cases h
  | raised error => cases h

end System

end CountyFlow.Publications
