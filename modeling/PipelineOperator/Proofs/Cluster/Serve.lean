import PipelineOperator.Cluster.Bench
import PipelineOperator.Proofs.Cluster.Sound

/-!
A cluster that serves every call: what a bench answers while none of its switches is on, on the
store alone. A request is about one kind of objects. It reads and writes no other table, so the
reply and the table left depend on the table of that kind only (`Store.AgreeOff.serve`).
-/

set_option autoImplicit false
set_option relaxedAutoImplicit false

namespace PipelineOperator

namespace Request

/-- The kind of objects that a request is about. -/
def kind : Request → Kind
  | get kind _ => kind
  | create kind _ => kind
  | replace kind _ => kind
  | writeStatus kind _ => kind
  | setJobConfig .. => .jenkinsJob
  | delete kind _ => kind
  | listStages .. => .stage
  | jenkinsEnabled _ => .jenkins

theorem write?_of_isRead {request : Request} (hread : request.isRead = true) :
    request.write? = none := by
  cases request <;> first | rfl | exact nomatch hread

end Request

namespace Store

/-- What the bench answers as long as it serves every call. -/
def serve (request : Request) (s : Store) : Except Fault request.Reply × Store :=
  (Bench.shown request (answer request s).1, (answer request s).2)

/-- The stages that the bench lists: those that state their namespace. -/
def listed (s : Store) (ns : String) (pipeline : Option String) : List Stage :=
  (s.stagesIn ns pipeline).filter (fun stage ↦ stage.metadata.ns.isSome)

theorem serve_of_isRead {request : Request} (hread : request.isRead = true) (s : Store) :
    (serve request s).2 = s := answer_of_isRead hread s

theorem Sound.serve {s : Store} (hsound : s.Sound) {request : Request}
    (hcreates : ∀ k (o : Object k), request = .create k o → o.metadata.isReleased = false) :
    (Store.serve request s).2.Sound := hsound.answer hcreates

/-! ### Independence of kinds -/

/-- The stores have the same tables, except perhaps for some kinds. -/
def AgreeOff (kinds : Kind → Prop) (s t : Store) : Prop :=
  ∀ k, ¬ kinds k → s.table k = t.table k

variable {kinds : Kind → Prop} {s t : Store}

theorem AgreeOff.refl (s : Store) : AgreeOff kinds s s := fun _ _ ↦ rfl

theorem AgreeOff.symm (hagree : AgreeOff kinds s t) : AgreeOff kinds t s :=
  fun k hk ↦ (hagree k hk).symm

theorem AgreeOff.trans {u : Store} (hfirst : AgreeOff kinds s t) (hsecond : AgreeOff kinds t u) :
    AgreeOff kinds s u := fun k hk ↦ (hfirst k hk).trans (hsecond k hk)

theorem AgreeOff.find? (hagree : AgreeOff kinds s t) {k : Kind} (hk : ¬ kinds k) (key : Key) :
    s.find? k key = t.find? k key := by
  rw [Store.find?, Store.find?, hagree k hk]

theorem AgreeOff.setTable (hagree : AgreeOff kinds s t) {k : Kind} (table : Table k) :
    AgreeOff kinds (s.setTable k table) (t.setTable k table) := by
  intro k' hk'
  by_cases hkind : k' = k
  · subst hkind
    rw [table_setTable_self, table_setTable_self]
  · rw [table_setTable_of_ne s hkind, table_setTable_of_ne t hkind, hagree k' hk']

theorem AgreeOff.put (hagree : AgreeOff kinds s t) {k : Kind} (hk : ¬ kinds k) (o : Object k) :
    AgreeOff kinds (s.put o) (t.put o) := by
  rw [Store.put, Store.put, hagree k hk]
  exact hagree.setTable _

/-- What is stored under a kind that is left out of account does not count. -/
theorem agreeOff_put (s : Store) {k : Kind} (hk : kinds k) (o : Object k) :
    AgreeOff kinds (s.put o) s := by
  intro k' hk'
  refine table_setTable_of_ne s ?_ _
  rintro rfl
  exact hk' hk

theorem AgreeOff.remove (hagree : AgreeOff kinds s t) {k : Kind} (hk : ¬ kinds k) (key : Key) :
    AgreeOff kinds (s.remove k key) (t.remove k key) := by
  rw [Store.remove, Store.remove, hagree k hk]
  exact hagree.setTable _

/-- A request about another kind does not tell stores apart, and leaves them as far apart as they
were. -/
theorem AgreeOff.serve (hagree : AgreeOff kinds s t) {request : Request}
    (hkind : ¬ kinds request.kind) :
    (Store.serve request s).1 = (Store.serve request t).1 ∧
      AgreeOff kinds (Store.serve request s).2 (Store.serve request t).2 := by
  cases request with
  | get k key => exact ⟨congrArg Except.ok (hagree.find? hkind key), hagree⟩
  | listStages ns pipeline =>
    refine ⟨?_, hagree⟩
    have hstages : s.stages = t.stages := hagree .stage hkind
    simp only [Store.serve, answer, stagesIn, hstages]
  | jenkinsEnabled ns =>
    refine ⟨?_, hagree⟩
    have hjenkins : s.jenkins = t.jenkins := hagree .jenkins hkind
    simp only [Store.serve, answer, hasJenkins, hjenkins]
  | delete k key => exact ⟨rfl, hagree.remove hkind key⟩
  | create k o =>
    have hk : ¬ kinds k := hkind
    simp only [Store.serve, answer, create, hagree.find? hk]
    split
    · exact ⟨rfl, hagree⟩
    · exact ⟨rfl, hagree.put hkind o⟩
  | replace k o =>
    have hk : ¬ kinds k := hkind
    simp only [Store.serve, answer, replace, hagree.find? hk]
    split
    · exact ⟨rfl, hagree⟩
    · split
      · exact ⟨rfl, hagree.remove hkind o.key⟩
      · exact ⟨rfl, hagree.put hkind o⟩
  | writeStatus k o =>
    have hk : ¬ kinds k := hkind
    simp only [Store.serve, answer, writeStatus, hagree.find? hk]
    split
    · exact ⟨rfl, hagree⟩
    · rw [hagree k hk]
      exact ⟨rfl, hagree.setTable _⟩
  | setJobConfig key config =>
    have hk : ¬ kinds .jenkinsJob := hkind
    simp only [Store.serve, answer, setJobConfig, hagree.find? hk]
    split
    · exact ⟨rfl, hagree⟩
    · have hjobs : s.jenkinsJobs = t.jenkinsJobs := hagree .jenkinsJob hk
      rw [hjobs]
      exact ⟨rfl, hagree.setTable (k := .jenkinsJob) _⟩

/-- A request leaves the tables of other kinds alone. -/
theorem table_serve_of_ne (s : Store) {request : Request} {k : Kind} (hk : k ≠ request.kind) :
    (Store.serve request s).2.table k = s.table k := by
  cases request with
  | get k' key => rfl
  | listStages ns pipeline => rfl
  | jenkinsEnabled ns => rfl
  | delete k' key => exact table_setTable_of_ne s hk _
  | create k' o =>
    simp only [Store.serve, answer, create]
    split
    · rfl
    · exact table_setTable_of_ne s hk _
  | replace k' o =>
    simp only [Store.serve, answer, replace]
    split
    · rfl
    · split
      · exact table_setTable_of_ne s hk _
      · exact table_setTable_of_ne s hk _
  | writeStatus k' o =>
    simp only [Store.serve, answer, writeStatus]
    split
    · rfl
    · exact table_setTable_of_ne s hk _
  | setJobConfig key config =>
    simp only [Store.serve, answer, setJobConfig]
    split
    · rfl
    · exact table_setTable_of_ne s (k := .jenkinsJob) hk _

end Store

end PipelineOperator
