import PhysicalMemory.Proofs.Boot.Start
import PhysicalMemory.Proofs.Manager.Progress
import PhysicalMemory.Proofs.Manager.Service

/-!
# The life of the instance

A course of services is lawful if, once there is a manager, objects of slabs are given
back only by live or ignored addresses and only live bytes are written.  Each service
then comes to calls of a session that allows them, so what is live stays accounted for; and
pages that are refused with a halt are refused before anything has changed.
-/

namespace PhysicalMemory

open Manager (orNull)

namespace Session

variable {session : Session} {origin : BuddyAllocator}

/-- Objects of slabs are given back only by live or ignored addresses. -/
def Spares (session : Session) : Call → Prop
  | .release address => session.Permits (.release address)
  | _ => True

theorem permits_write {extent : Extent} (member : extent ∈ session.live) {ram : Ram}
    (agrees : session.manager.ram.AgreesOff ram fun byte =>
      extent.start ≤ byte ∧ byte < extent.start + extent.size) :
    session.Permits (.write ram) :=
  agrees.mono fun _ inside => ⟨extent, member, inside⟩

/-- Pages given back with a halt are given back without any effect. -/
theorem AccountsForLive.state_of_halt (accounts : session.AccountsForLive origin) {page : Page}
    {order : Nat}
    {halt : Halt}
    (halted : ((Manager.releasePages page order).run session.manager).result = .error halt) :
    ((Manager.releasePages page order).run session.manager).state = session.manager := by
  rcases accounts.takesBack page order with ⟨_, refused⟩ | ⟨after, answers, -⟩
  · exact congrArg Session.manager (releasePages_of_refused refused)
  · have answered : ((Manager.releasePages page order).run session.manager).result = .ok () :=
      answers.1
    rw [answered] at halted
    cases halted

end Session

namespace Service

variable {α : Type} {session : Session}

def requestThen (manager : Manager) (request : Request) (calls : Nat → Manager → List Call) :
    List Call :=
  .allocateAligned request.size request.alignment ::
    match (orNull <$> (Manager.allocateAligned request.size request.alignment).outcome).run
      manager with
    | ⟨.ok address, after, _⟩ => if address ≠ 0 then calls address after else []
    | ⟨.error _, _, _⟩ => []

/-- The calls that a service makes on the manager, other than work that somebody brings along. -/
def calls (manager : Manager) : Service α → List Call
  | .allocatePages order => [.allocatePages order]
  | .allocate size => [.allocate size]
  | .allocateAligned size alignment => [.allocateAligned size alignment]
  | .releasePages page order => [.releasePages page order]
  | .release address => [.release address]
  | .alloc request => [.allocateAligned request.size request.alignment]
  | .dealloc address _ => [.release address]
  | .allocZeroed request =>
      requestThen manager request fun address after =>
        [.write (after.ram.clear address request.size)]
  | .realloc address request size =>
      requestThen manager { request with size := size } fun moved after =>
        [.write (after.ram.copy (after.readable address) address moved (min request.size size)),
          .release address]
  | .write ram => [.write ram]
  | .boot _ _ | .isInitialized | .within _ => []

/--
The service makes these calls, in the course of which slabs are spared; what somebody
brings along may be any work that comes to calls that are allowed.
-/
def Makes (session : Session) (made : List Call) : Service α → Prop
  | .within action => session.Allows made ∧
      (action.run session.manager).state = (session.run made).manager
  | .write ram => made = calls session.manager (.write ram) ∧ session.Permits (.write ram)
  | service => made = service.calls session.manager ∧ session.Each Session.Spares made

/-- Bytes that were asked for and granted are live. -/
theorem live_of_served {request : Request} {address : Nat}
    (served : ((orNull <$> (Manager.allocateAligned request.size request.alignment).outcome).run
      session.manager).result = .ok address) (nonzero : address ≠ 0) :
    ⟨address, request.size⟩ ∈
      (session.perform (.allocateAligned request.size request.alignment)).live := by
  rw [Action.run_map] at served
  change _ ∈ (session.follow _ _).live
  unfold Session.follow
  generalize ((Manager.allocateAligned request.size request.alignment).outcome.run
    session.manager).result = result at served ⊢
  rcases result with halt | failure | granted
  · cases served
  · exact absurd (Except.ok.inj served).symm nonzero
  · obtain rfl : granted = address := Except.ok.inj served
    exact List.mem_cons_self

/-- What follows a request comes to allowed calls if it does so after any that was granted. -/
theorem spec_requestThen {request : Request} {calls : Nat → Manager → List Call}
    {next : Nat → Action Manager Unit}
    (follows : ∀ address (after : Session), ⟨address, request.size⟩ ∈ after.live →
      after.Each Session.Spares (calls address after.manager) →
        after.Allows (calls address after.manager) ∧
          ((next address).run after.manager).state =
            (after.run (calls address after.manager)).manager)
    (spared : session.Each Session.Spares (requestThen session.manager request calls)) :
    session.Allows (requestThen session.manager request calls) ∧
      ((do
        let address ← orNull <$> (Manager.allocateAligned request.size request.alignment).outcome
        if address ≠ 0 then next address
        return address : Action Manager Nat).run session.manager).state =
          (session.run (requestThen session.manager request calls)).manager := by
  have live := @live_of_served session request
  have moved : ((orNull <$> (Manager.allocateAligned request.size
      request.alignment).outcome).run session.manager).state =
        (session.perform (.allocateAligned request.size request.alignment)).manager := by
    rw [Action.run_map]
    rfl
  -- What follows the request looks only at its answer and at the manager it left.
  unfold requestThen at spared ⊢
  rw [Action.run_bind]
  generalize (orNull <$> (Manager.allocateAligned request.size
    request.alignment).outcome).run session.manager = outcome at live moved spared ⊢
  rcases outcome with ⟨halt | address, after, log⟩
  · exact ⟨⟨trivial, trivial⟩, moved⟩
  · obtain rfl := moved
    by_cases null : address = 0
    · subst null
      exact ⟨⟨trivial, trivial⟩, rfl⟩
    · dsimp only at spared ⊢
      rw [if_pos null] at spared
      rw [if_pos null, if_pos null, bind_pure_comp, Action.run_map]
      obtain ⟨allowed, state⟩ := follows address _ (live rfl null) spared.2
      exact ⟨⟨trivial, allowed⟩, state⟩

/-- The calls that a service makes are allowed, and they leave what the service leaves. -/
theorem Makes.spec {service : Service α} {made : List Call} (makes : service.Makes session made) :
    session.Allows made ∧
      (service.onManager.run session.manager).state = (session.run made).manager := by
  cases service with
  | within action =>
      obtain ⟨allowed, state⟩ := makes
      refine ⟨allowed, ?_⟩
      rw [onManager, Action.run_map]
      exact state
  | write ram =>
      obtain ⟨rfl, permitted⟩ := makes
      exact ⟨⟨permitted, trivial⟩, rfl⟩
  | boot layout ram =>
      obtain ⟨rfl, -⟩ := makes
      exact ⟨trivial, rfl⟩
  | isInitialized =>
      obtain ⟨rfl, -⟩ := makes
      exact ⟨trivial, rfl⟩
  | release address =>
      obtain ⟨rfl, spared⟩ := makes
      exact ⟨spared, rfl⟩
  | dealloc address request =>
      obtain ⟨rfl, spared⟩ := makes
      exact ⟨spared, rfl⟩
  | alloc request =>
      obtain ⟨rfl, -⟩ := makes
      refine ⟨⟨trivial, trivial⟩, ?_⟩
      rw [onManager, Action.run_map]
      rfl
  | allocZeroed request =>
      obtain ⟨rfl, spared⟩ := makes
      refine spec_requestThen (fun address after member _ => ⟨⟨?_, trivial⟩, rfl⟩) spared
      exact Session.permits_write member (Ram.agreesOff_clear _ _ _)
  | realloc address request size =>
      obtain ⟨rfl, spared⟩ := makes
      refine spec_requestThen (fun moved after member spared => ⟨⟨?_, spared.2⟩, ?_⟩) spared
      · refine Session.permits_write member ((Ram.agreesOff_copy _ _ _ _ _).mono ?_)
        rintro byte ⟨low, high⟩
        exact ⟨low, Nat.lt_of_lt_of_le high (Nat.add_le_add_left (Nat.min_le_right _ _) _)⟩
      · rfl
  | _ =>
      obtain ⟨rfl, -⟩ := makes
      exact ⟨⟨trivial, trivial⟩, rfl⟩

end Service

namespace Asked

open Service

/--
Slabs are spared and live bytes alone are written, once there is a manager; the
session is where the manager and what is live are then.
-/
inductive Lawful : Option Session → List Asked → Prop where
  | nil (tracked : Option Session) : Lawful tracked []
  | unserved {asked : Asked} {rest : List Asked}
      (later : Lawful ((asked.service.plain.run none).state.map Session.start) rest) :
      Lawful none (asked :: rest)
  | served {session : Session} {asked : Asked} {made : List Call} {rest : List Asked}
      (makes : asked.service.Makes session made)
      (later : Lawful (some (session.run made)) rest) :
      Lawful (some session) (asked :: rest)

def Sound (tracked : Option Session) : Prop :=
  ∀ session, tracked = some session → ∃ origin, session.AccountsForLive origin

theorem booted_of_plain {α : Type} {service : Service α} {manager : Manager}
    (state : (service.plain.run none).state = some manager) :
    ∃ layout ram, Action.Answers (Manager.boot layout ram) () (.ok manager) () := by
  cases service with
  | boot layout ram =>
      change ((Service.boot layout ram).unserved.run none).state = some manager at state
      simp only [unserved, Action.run_bind, Action.run_runFrom] at state
      rcases booted : (Manager.boot layout ram).run () with ⟨halt | failure | served, ⟨⟩, log⟩
      · rw [booted] at state
        cases state
      · rw [booted] at state
        cases state
      · rw [booted] at state
        obtain rfl : served = manager := Option.some.inj state
        exact ⟨layout, ram, by rw [booted], rfl⟩
  | release address => cases (state_leak address none).symm.trans state
  | dealloc address request => cases (state_leak address none).symm.trans state
  | _ => cases state

theorem state_boot {layout : MemoryLayout} {ram : Ram} {manager : Manager}
    (booted : Action.Answers (Manager.boot layout ram) () (.ok manager) ()) :
    ((Service.boot layout ram).plain.run none).state = some manager := by
  change ((Service.boot layout ram).unserved.run none).state = some manager
  simp only [unserved, Action.run_bind, Action.run_runFrom]
  obtain ⟨result, -⟩ := booted
  generalize (Manager.boot layout ram).run () = outcome at result ⊢
  rcases outcome with ⟨told, ⟨⟩, log⟩
  obtain rfl : told = .ok (.ok manager) := result
  rfl

theorem sound_plain {α : Type} (service : Service α) :
    Sound ((service.plain.run none).state.map Session.start) := by
  intro session started
  obtain ⟨manager, state, rfl⟩ := Option.map_eq_some_iff.1 started
  obtain ⟨layout, ram, booted⟩ := booted_of_plain state
  obtain ⟨plan, raw, seeded, booted⟩ := Manager.boot_eq_ok booted
  exact ⟨_, booted.accounts⟩

theorem Lawful.tracked {tracked : Option Session} {course : List Asked}
    (lawful : Lawful tracked course) (sound : Sound tracked) :
    ∃ last, after plain (tracked.map Session.manager) course = last.map Session.manager ∧
      Sound last := by
  induction lawful with
  | nil tracked => exact ⟨tracked, rfl, sound⟩
  | @unserved asked rest later ih =>
      obtain ⟨last, state, sound⟩ := ih (sound_plain asked.service)
      refine ⟨last, ?_, sound⟩
      rw [← state, Option.map_map, show Session.manager ∘ Session.start = id from rfl,
        Option.map_id]
      rfl
  | @served session asked made rest makes later ih =>
      obtain ⟨allowed, state⟩ := makes.spec
      obtain ⟨origin, accounts⟩ := sound session rfl
      have accounts := accounts.run allowed
      obtain ⟨last, after, sound⟩ := ih (by
        rintro _ ⟨⟩
        exact ⟨origin, accounts⟩)
      refine ⟨last, ?_, sound⟩
      rw [Option.map_some, ← state] at after
      exact after

end Asked

namespace Instance

open Asked Service

/--
The instance tells at every point what one plain manager tells, from the first boot that
succeeds, and before it nobody is served; its cell shows which it is.  On a lawful course pages
that are given back with a halt leave the lock free and the manager as it was, so that
whatever is asked for later is told as if they had not been given back.
-/
theorem run_serves :
    (∀ course : List Asked,
      told onInstance unbooted course = told plain none course ∧
        (after onInstance unbooted course).Shows (after plain none course)) ∧
    ∀ course : List Asked, Lawful none course → ∀ (page : Page) (order : Nat) (halt : Halt),
      ((releasePages page order).run (after onInstance unbooted course)).result = .error halt →
        (∃ manager, (after onInstance unbooted course).Holds manager ∧
          ((releasePages page order).run (after onInstance unbooted course)).state.Holds manager) ∧
        ∀ later, told onInstance
            ((releasePages page order).run (after onInstance unbooted course)).state later =
          told onInstance (after onInstance unbooted course) later := by
  have untouched : Shows unbooted none := rfl
  refine ⟨fun course => Asked.simulates simulates_plain untouched course, ?_⟩
  intro course lawful page order halt halted
  have shows := (Asked.simulates simulates_plain untouched course).2
  obtain ⟨last, state, sound⟩ := lawful.tracked (by rintro _ ⟨⟩)
  rw [Option.map_none] at state
  rw [state] at shows
  generalize after onInstance unbooted course = cell at halted shows ⊢
  cases last with
  | none =>
      -- Nobody takes pages back yet: they are reported lost, which is no halt.
      obtain rfl : cell = unbooted := shows
      cases halted
  | some session =>
      have holds : cell.Holds session.manager := shows
      obtain ⟨origin, accounts⟩ := sound session rfl
      obtain ⟨result, kept, -⟩ := simulates_releasePages page order cell _ holds
      rw [accounts.state_of_halt (result.symm.trans halted)] at kept
      refine ⟨⟨session.manager, holds, kept⟩, fun later => ?_⟩
      have kept : Shows _ (some session.manager) := kept
      have undone := Asked.simulates simulates_plain kept later
      have spared := Asked.simulates simulates_plain shows later
      exact undone.1.trans spared.1.symm

def sampleCourse : List Asked :=
  [⟨.allocate 8⟩, ⟨.boot { MemoryLayout.sixteenPages with pageSize := 3 }⟩, ⟨.boot .sixteenPages⟩,
    ⟨.boot .sixteenPages⟩, ⟨.allocatePages 1⟩]

theorem sampleCourse_lawful : Lawful none sampleCourse := by
  have refused : ((Service.boot { MemoryLayout.sixteenPages with pageSize := 3 }).plain.run
      none).state = none :=
    Option.isNone_iff_eq_none.1 (by decide +kernel)
  have booted := state_boot Session.sampleManager_booted
  refine .unserved (.unserved (refused ▸ .unserved (booted ▸ ?_)))
  exact .served ⟨rfl, trivial⟩ (.served ⟨rfl, trivial, trivial⟩ (.nil _))

/-- A block given back at the wrong order is not lost to the one who asks next. -/
theorem run_serves_sample :
    Lawful none sampleCourse ∧
    ((releasePages (.unowned .heap 6144) 0).run (after onInstance unbooted sampleCourse)).result =
      .error (.violation (.freeAtWrongOrder 6144 0 1)) ∧
    told onInstance ((releasePages (.unowned .heap 6144) 0).run
        (after onInstance unbooted sampleCourse)).state [⟨.allocatePages 1⟩, ⟨.release 6144⟩] =
      told onInstance (after onInstance unbooted sampleCourse)
        [⟨.allocatePages 1⟩, ⟨.release 6144⟩] := by
  have halted : ((releasePages (.unowned .heap 6144) 0).run
      (after onInstance unbooted sampleCourse)).result =
        .error (.violation (.freeAtWrongOrder 6144 0 1)) := by decide +kernel
  refine ⟨sampleCourse_lawful, halted, ?_⟩
  exact (run_serves.2 sampleCourse sampleCourse_lawful (.unowned .heap 6144) 0 _ halted).2
      [⟨.allocatePages 1⟩, ⟨.release 6144⟩]

end Instance

end PhysicalMemory
