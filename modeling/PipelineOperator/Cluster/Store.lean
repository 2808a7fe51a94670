import PipelineOperator.Cluster.Request

/-!
The objects of a cluster, a table for each kind, and how the cluster answers requests that nothing
interferes with. `Store.find?` is the view of a store: the lemmas beside it say what is found after
a write or a removal, and `Store.ext_find` that a store is what is found in it.
-/

set_option autoImplicit false
set_option relaxedAutoImplicit false

namespace PipelineOperator

abbrev Table (k : Kind) := SortedMap Key (Object k)

structure Store where
  stages : Table .stage := ∅
  pipelines : Table .pipeline := ∅
  imageStreams : Table .imageStream := ∅
  components : Table .component := ∅
  codebases : Table .codebase := ∅
  gitServers : Table .gitServer := ∅
  jenkinsJobs : Table .jenkinsJob := ∅
  jenkinsFolders : Table .jenkinsFolder := ∅
  jenkins : Table .jenkins := ∅
  spaces : Table .space := ∅
  namespaces : Table .ns := ∅
  roles : Table .role := ∅
  roleBindings : Table .roleBinding := ∅
deriving DecidableEq

namespace Store

def table (s : Store) : (k : Kind) → Table k
  | .stage => s.stages
  | .pipeline => s.pipelines
  | .imageStream => s.imageStreams
  | .component => s.components
  | .codebase => s.codebases
  | .gitServer => s.gitServers
  | .jenkinsJob => s.jenkinsJobs
  | .jenkinsFolder => s.jenkinsFolders
  | .jenkins => s.jenkins
  | .space => s.spaces
  | .ns => s.namespaces
  | .role => s.roles
  | .roleBinding => s.roleBindings

def setTable (s : Store) : (k : Kind) → Table k → Store
  | .stage, t => { s with stages := t }
  | .pipeline, t => { s with pipelines := t }
  | .imageStream, t => { s with imageStreams := t }
  | .component, t => { s with components := t }
  | .codebase, t => { s with codebases := t }
  | .gitServer, t => { s with gitServers := t }
  | .jenkinsJob, t => { s with jenkinsJobs := t }
  | .jenkinsFolder, t => { s with jenkinsFolders := t }
  | .jenkins, t => { s with jenkins := t }
  | .space, t => { s with spaces := t }
  | .ns, t => { s with namespaces := t }
  | .role, t => { s with roles := t }
  | .roleBinding, t => { s with roleBindings := t }

@[simp] theorem table_setTable_self (s : Store) (k : Kind) (t : Table k) :
    (s.setTable k t).table k = t := by cases k <;> rfl

theorem table_setTable_of_ne (s : Store) {k k' : Kind} (h : k' ≠ k) (t : Table k) :
    (s.setTable k t).table k' = s.table k' := by
  cases k <;> cases k' <;> first | rfl | exact absurd rfl h

theorem ext_table {s t : Store} (h : ∀ k, s.table k = t.table k) : s = t := by
  obtain ⟨⟩ := s
  obtain ⟨⟩ := t
  simp only [mk.injEq]
  exact ⟨h .stage, h .pipeline, h .imageStream, h .component, h .codebase, h .gitServer,
    h .jenkinsJob, h .jenkinsFolder, h .jenkins, h .space, h .ns, h .role, h .roleBinding⟩

def find? (s : Store) (k : Kind) (key : Key) : Option (Object k) := (s.table k).get? key

/-- Stores an object under its key. -/
def put {k : Kind} (s : Store) (o : Object k) : Store :=
  s.setTable k ((s.table k).insert o.key o)

def remove (s : Store) (k : Kind) (key : Key) : Store :=
  s.setTable k ((s.table k).erase key)

theorem find?_put_self {k : Kind} (s : Store) (o : Object k) :
    (s.put o).find? k o.key = some o := by
  simp [find?, put]

theorem find?_put_of_key_ne {k : Kind} (s : Store) (o : Object k) {key : Key} (h : key ≠ o.key) :
    (s.put o).find? k key = s.find? k key := by
  simp [find?, put, SortedMap.get?_insert_of_ne _ h]

theorem find?_put_of_kind_ne {k k' : Kind} (s : Store) (o : Object k) (h : k' ≠ k) (key : Key) :
    (s.put o).find? k' key = s.find? k' key := by
  simp [find?, put, table_setTable_of_ne s h]

@[simp] theorem find?_remove_self (s : Store) (k : Kind) (key : Key) :
    (s.remove k key).find? k key = none := by
  simp [find?, remove]

theorem find?_remove_of_key_ne (s : Store) (k : Kind) {key key' : Key} (h : key' ≠ key) :
    (s.remove k key).find? k key' = s.find? k key' := by
  simp [find?, remove, SortedMap.get?_erase_of_ne _ h]

theorem find?_remove_of_kind_ne (s : Store) {k k' : Kind} (h : k' ≠ k) (key key' : Key) :
    (s.remove k key).find? k' key' = s.find? k' key' := by
  simp [find?, remove, table_setTable_of_ne s h]

/-- Two stores in which the same objects are found are the same store. -/
theorem ext_find {s t : Store} (h : ∀ k key, s.find? k key = t.find? k key) : s = t :=
  ext_table (fun k ↦ SortedMap.ext_get? (h k))

/-- The stages of a namespace in the order of their names, or those that carry a pipeline's name. -/
def stagesIn (s : Store) (ns : String) (pipeline : Option String) : List Stage :=
  ((s.stages.toList.filter (fun e ↦ e.1.ns == ns)).map (·.2)).filter (fun stage ↦
    pipeline.all (fun p ↦ stage.metadata.label? Naming.pipelineLabel == some p))

/-- There is a Jenkins instance in the namespace. -/
def hasJenkins (s : Store) (ns : String) : Bool := s.jenkins.keys.any (fun key ↦ key.ns == ns)

def create {k : Kind} (s : Store) (o : Object k) : Creation × Store :=
  if (s.find? k o.key).isSome then (.alreadyExists, s) else (.created, s.put o)

/-- Writes an object over the one of its key. A deleting object without finalizers vanishes. -/
def replace {k : Kind} (s : Store) (o : Object k) : Except Fault (Object k) × Store :=
  if (s.find? k o.key).isNone then (.error (.ofCause (.absent k o.key.text)), s)
  else if o.metadata.isReleased then (.ok o, s.remove k o.key)
  else (.ok o, s.put o)

/-- Writes the status of an object into the stored one. -/
def writeStatus {k : Kind} (s : Store) (o : Object k) : Except Fault (Object k) × Store :=
  match s.find? k o.key with
  | none => (.error (.ofCause (.absent k o.key.text)), s)
  | some stored =>
    let written := { stored with status := o.status }
    (.ok written, s.setTable k ((s.table k).insert o.key written))

def setJobConfig (s : Store) (key : Key) (config : String) : Except Fault Unit × Store :=
  match s.find? .jenkinsJob key with
  | none => (.error (.ofCause (.absent .jenkinsJob key.text)), s)
  | some job =>
    let job : JenkinsJob := { job with
      spec := { job.spec with job := { job.spec.job with config := config } } }
    (.ok (), { s with jenkinsJobs := s.jenkinsJobs.insert key job })

/-- How the cluster answers. -/
def answer : (request : Request) → Store → Except Fault request.Reply × Store
  | .get k key, s => (.ok (s.find? k key), s)
  | .create _ o, s =>
    let (creation, s) := s.create o
    (.ok creation, s)
  | .replace _ o, s => s.replace o
  | .writeStatus _ o, s => s.writeStatus o
  | .setJobConfig key config, s => s.setJobConfig key config
  | .delete k key, s => (.ok (), s.remove k key)
  | .listStages ns pipeline, s => (.ok (s.stagesIn ns pipeline), s)
  | .jenkinsEnabled ns, s => (.ok (s.hasJenkins ns), s)

theorem answer_of_isRead {request : Request} (h : request.isRead = true) (s : Store) :
    (answer request s).2 = s := by
  cases request <;> first | rfl | simp [Request.isRead] at h

/-- The marks for deletion in tests and by other clients carry this time. -/
def deletionTime : Instant := ⟨1735689600, 0⟩

/-- Marks an object as deleted by another client. -/
def markDeleted (s : Store) (k : Kind) (key : Key) : Store :=
  match s.find? k key with
  | none => s
  | some o =>
    let marked := { o with metadata := { o.metadata with deletedAt := some deletionTime } }
    s.setTable k ((s.table k).insert key marked)

/-- Every object with its kind and key. -/
def objects (s : Store) : List (Sigma Object) :=
  Kind.all.flatMap (fun k ↦ (s.table k).values.map (fun o ↦ ⟨k, o⟩))

end Store

end PipelineOperator
