import Mathlib.Data.List.TakeDrop
import Mathlib.Data.List.TakeWhile
import Qaas.Auth.TenantId
import Qaas.Retry

/-! The names under which the server keeps what belongs to each caller. -/

namespace Qaas

/-- What kind of error a tool call answers with. -/
inductive ErrorCode where
  | invalidParams
  | invalidRequest
  | internalError
  deriving DecidableEq, Repr

/-- When a refused call may be repeated, if that can help at all. -/
structure RetryHint where
  retryAfterSeconds : Option Duration
  deriving DecidableEq

/-- The error a tool call answers with. -/
structure ErrorData where
  code : ErrorCode
  message : String
  data : Option RetryHint := none
  deriving DecidableEq

/-- The error for a call that is not well formed. -/
def ErrorData.invalidParams (message : String) : ErrorData :=
  { code := .invalidParams, message }

/-- The error for a well-formed call that is refused. -/
def ErrorData.invalidRequest (message : String) (data : Option RetryHint) : ErrorData :=
  { code := .invalidRequest, message, data }

/-- The error for a call that the server fails to serve. -/
def ErrorData.internalError (message : String) : ErrorData :=
  { code := .internalError, message }

/-- Whom a call comes from: an authenticated tenant, or the trusted local connection. -/
abbrev Caller := Option TenantId

/-- A name becomes part of a path, so that only a plain identifier is accepted. -/
def validateQueueName (name : String) : Except ErrorData Unit :=
  if name.isEmpty = false ∧ name.utf8ByteSize ≤ 128 ∧ name.toList.all isNameChar = true then .ok ()
  else .error <| .invalidParams s!"queue name {name.quote} is invalid: must be 1-128 characters of ASCII letters, digits, '-', or '_'"

/-- A name that validation accepts. -/
def ValidName (name : String) : Prop :=
  validateQueueName name = .ok ()

/-- The separator between a tenant and a queue. -/
def nul : Char := '\x00'

/-- The key of a caller's queue in the maps of queues. -/
def scopeKey (tenant : Caller) (name : String) : String :=
  match tenant with
  | some tenant => tenant.asStr ++ String.singleton nul ++ name
  | none => name

/-- The key of a caller's routes. -/
def tenantKey (tenant : Caller) : String :=
  match tenant with
  | some tenant => tenant.asStr
  | none => ""

/-- What every key of a tenant's queues starts with. -/
def tenantPrefix (tenant : TenantId) : String :=
  tenant.asStr ++ String.singleton nul

/-- Whether a text starts with another one. -/
def startsWith (text start : String) : Bool :=
  start.toList.isPrefixOf text.toList

/-- The parts of a text before and behind the first separator. -/
def splitOnce (separator : Char) (text : String) : Option (String × String) :=
  match text.toList.span (· != separator) with
  | (before, _ :: after) => some (String.ofList before, String.ofList after)
  | (_, []) => none

/-- A place in the file tree, as the names from the root down to it. -/
abbrev Location := List String

/-- Go on from a place by one part of a path. -/
def Location.enter (location : Location) (part : List Char) : Location :=
  if part = [] ∨ part = ['.'] then location
  else if part = ['.', '.'] then location.dropLast
  else location ++ [String.ofList part]

/-- The place that a path names, seen from a directory. -/
def Location.join (directory : Location) (path : String) : Location :=
  let start := if path.toList.head? = some '/' then [] else directory
  (path.toList.splitOn '/').foldl Location.enter start

/-- A place with another last name. -/
def Location.withFileName (location : Location) (name : String) : Location :=
  location.dropLast ++ [name]

/-- The directory of a caller's queues. -/
def queueDir (dataDir : Location) (tenant : Caller) : Location :=
  match tenant with
  | some tenant => dataDir.join tenant.asStr
  | none => dataDir

/-- The log of a caller's queue. -/
def walPath (dataDir : Location) (tenant : Caller) (name : String) : Location :=
  (queueDir dataDir tenant).join (name ++ ".wal")

/-- The log of the dead letters beside a queue's own log. -/
def dlqPath (path : Location) : Location :=
  path.withFileName ((path.getLast?.getD "") ++ ".dlq")

/-- The log of the API keys. -/
def apiKeysPath (dataDir : Location) : Location :=
  dataDir.join "api_keys.log"

/-- The log of audited events. -/
def auditPath (dataDir : Location) : Location :=
  dataDir.join "audit.log"

/-- The two files of a caller's queue. -/
def queueFiles (dataDir : Location) (tenant : Caller) (name : String) : List Location :=
  [walPath dataDir tenant name, dlqPath (walPath dataDir tenant name)]

/-- Validation accepts exactly the plain identifiers of one to 128 characters. -/
theorem validName_iff {name : String} :
    ValidName name ↔ name.isEmpty = false ∧ name.utf8ByteSize ≤ 128 ∧
      name.toList.all isNameChar = true := by
  unfold ValidName validateQueueName
  split <;> simp_all

instance ValidName.decidable (name : String) : Decidable (ValidName name) :=
  decidable_of_iff _ validName_iff.symm

/-- A character of a name is none of those that separate names. -/
theorem isNameChar_apart {c : Char} (plain : isNameChar c = true) :
    c ≠ nul ∧ c ≠ '/' ∧ c ≠ '.' := by
  refine ⟨?_, ?_, ?_⟩ <;> rintro rfl <;> revert plain <;> decide

/-- A tenant's identifier holds none of the characters that separate names. -/
theorem TenantId.apart (tenant : TenantId) {c : Char} (member : c ∈ tenant.asStr.toList) :
    c ≠ nul ∧ c ≠ '/' ∧ c ≠ '.' :=
  isNameChar_apart (List.all_eq_true.mp tenant.plain c member)

/-- A valid name holds none of the characters that separate names. -/
theorem ValidName.apart {name : String} (valid : ValidName name) {c : Char}
    (member : c ∈ name.toList) : c ≠ nul ∧ c ≠ '/' ∧ c ≠ '.' :=
  isNameChar_apart (List.all_eq_true.mp (validName_iff.mp valid).2.2 c member)

theorem scopeKey_some (tenant : TenantId) (name : String) :
    (scopeKey (some tenant) name).toList = tenant.asStr.toList ++ nul :: name.toList := by
  simp [scopeKey]

/-- Different callers or different names have different keys. -/
theorem scopeKey_inj {first second : Caller} {name other : String} (valid : ValidName name)
    (validOther : ValidName other) (same : scopeKey first name = scopeKey second other) :
    first = second ∧ name = other := by
  have texts := congrArg String.toList same
  -- Only a tenant's key holds the separator, and it holds it once.
  cases first with
  | none =>
    cases second with
    | none => exact ⟨rfl, same⟩
    | some tenant =>
      rw [scopeKey_some] at texts
      have member : nul ∈ name.toList := by
        rw [show name.toList = _ from texts]
        simp
      exact absurd rfl (valid.apart member).1
  | some tenant =>
    cases second with
    | none =>
      rw [scopeKey_some] at texts
      have member : nul ∈ other.toList := by
        rw [show other.toList = _ from texts.symm]
        simp
      exact absurd rfl (validOther.apart member).1
    | some tenant' =>
      rw [scopeKey_some, scopeKey_some] at texts
      have left : nul ∉ tenant.asStr.toList := fun member => (tenant.apart member).1 rfl
      have right : nul ∉ name.toList := fun member => (valid.apart member).1 rfl
      obtain ⟨tenants, _, names⟩ := (List.append_cons_inj_of_notMem left right).mp texts
      exact ⟨congrArg some (TenantId.asStr_injective (String.toList_inj.mp tenants)),
        String.toList_inj.mp names⟩

/-- A key starts with a tenant's prefix exactly when it belongs to the tenant. -/
theorem startsWith_tenantPrefix {caller : Caller} {name : String} (valid : ValidName name)
    (tenant : TenantId) :
    startsWith (scopeKey caller name) (tenantPrefix tenant) = true ↔ caller = some tenant := by
  have start : (tenantPrefix tenant).toList = tenant.asStr.toList ++ [nul] := by simp [tenantPrefix]
  rw [startsWith, List.isPrefixOf_iff_prefix, start]
  constructor
  · rintro ⟨rest, shape⟩
    rw [List.append_assoc, List.singleton_append] at shape
    cases caller with
    | none =>
      -- The local connection's keys hold no separator.
      have member : nul ∈ name.toList := by
        rw [show name.toList = _ from shape.symm]
        simp
      exact absurd rfl (valid.apart member).1
    | some other =>
      rw [scopeKey_some] at shape
      have left : nul ∉ other.asStr.toList := fun member => (other.apart member).1 rfl
      have right : nul ∉ name.toList := fun member => (valid.apart member).1 rfl
      obtain ⟨tenants, _, _⟩ := (List.append_cons_inj_of_notMem left right).mp shape.symm
      exact congrArg some (TenantId.asStr_injective (String.toList_inj.mp tenants))
  · rintro rfl
    rw [scopeKey_some]
    exact ⟨name.toList, by simp⟩

/-- A text without the separator is not split. -/
theorem splitOnce_none {separator : Char} {text : String} (absent : separator ∉ text.toList) :
    splitOnce separator text = none := by
  have all : ∀ c ∈ text.toList, (c != separator) = true := by
    intro c member
    exact bne_iff_ne.mpr fun same => absent (same ▸ member)
  rw [splitOnce, List.span_eq_takeWhile_dropWhile, List.dropWhile_eq_nil_iff.mpr all]

/-- A text is split at its first separator. -/
theorem splitOnce_append {separator : Char} {before after : String}
    (absent : separator ∉ before.toList) :
    splitOnce separator (before ++ String.singleton separator ++ after) = some (before, after) := by
  -- The first separator is the one that was put there.
  have all : ∀ c ∈ before.toList, (c != separator) = true := by
    intro c member
    exact bne_iff_ne.mpr fun same => absent (same ▸ member)
  have shape : (before ++ String.singleton separator ++ after).toList =
      before.toList ++ separator :: after.toList := by simp
  rw [splitOnce, shape, List.span_eq_takeWhile_dropWhile, List.takeWhile_append_of_pos all,
    List.dropWhile_append_of_pos all]
  simp

/-- The label that a key carries in front of its separator is that of its caller. -/
theorem splitOnce_scopeKey {caller : Caller} {name : String} (valid : ValidName name) :
    splitOnce nul (scopeKey caller name) = caller.map fun tenant => (tenant.asStr, name) := by
  cases caller with
  | none => exact splitOnce_none fun member => (valid.apart member).1 rfl
  | some tenant => exact splitOnce_append fun member => (tenant.apart member).1 rfl

/-- A plain name leads one step down from a directory. -/
theorem Location.join_plain (directory : Location) {file : String} (relative : '/' ∉ file.toList)
    (named : file.toList ≠ [] ∧ file.toList ≠ ['.'] ∧ file.toList ≠ ['.', '.']) :
    directory.join file = directory ++ [file] := by
  -- A plain file name is one component, and neither of the two that are special.
  have start : file.toList.head? ≠ some '/' := fun first => relative (List.mem_of_head? first)
  have whole : file.toList.splitOn '/' = [file.toList] := by
    refine List.splitOnP_eq_singleton fun c member => ?_
    exact beq_eq_false_iff_ne.mpr fun same => relative (same ▸ member)
  rw [join, if_neg start, whole]
  simp [enter, named]

/-- A tenant's directory lies right below the data directory. -/
theorem queueDir_some (dataDir : Location) (tenant : TenantId) :
    queueDir dataDir (some tenant) = dataDir ++ [tenant.asStr] := by
  -- An identifier is not empty and has neither slashes nor dots.
  refine Location.join_plain dataDir (fun member => (tenant.apart member).2.1 rfl) ⟨?_, ?_, ?_⟩
  · intro empty
    have nonempty := tenant.nonempty
    rw [show tenant.value = "" from String.toList_inj.mp empty] at nonempty
    cases nonempty
  · intro dot
    exact (tenant.apart (c := '.') (by rw [dot]; simp)).2.2 rfl
  · intro dots
    exact (tenant.apart (c := '.') (by rw [dots]; simp)).2.2 rfl

/-- A queue's log lies in its caller's directory. -/
theorem walPath_eq (dataDir : Location) (tenant : Caller) {name : String} (valid : ValidName name) :
    walPath dataDir tenant name = queueDir dataDir tenant ++ [name ++ ".wal"] := by
  refine Location.join_plain _ ?_ ?_
  · intro member
    rw [String.toList_append, List.mem_append] at member
    rcases member with early | late
    · exact (valid.apart early).2.1 rfl
    · revert late
      decide
  · -- The suffix alone is longer than the names that mean a directory.
    have long : 3 ≤ (name ++ ".wal").toList.length := by simp
    refine ⟨?_, ?_, ?_⟩ <;> intro short <;> rw [short] at long <;> simp at long

/-- The log of the dead letters lies beside the queue's own. -/
theorem dlqPath_eq (dataDir : Location) (tenant : Caller) {name : String} (valid : ValidName name) :
    dlqPath (walPath dataDir tenant name) = queueDir dataDir tenant ++ [name ++ ".wal" ++ ".dlq"] := by
  rw [walPath_eq dataDir tenant valid]
  simp [dlqPath, Location.withFileName]

/-- A name with an extension. -/
def withExtension (name extension : String) : String :=
  name ++ String.singleton '.' ++ extension

/-- A queue's files lie in its caller's directory, under the queue's name with an extension. -/
theorem mem_queueFiles {dataDir : Location} {tenant : Caller} {name : String} (valid : ValidName name)
    {location : Location} :
    location ∈ queueFiles dataDir tenant name ↔ ∃ extension ∈ ["wal", "wal.dlq"],
      location = queueDir dataDir tenant ++ [withExtension name extension] := by
  -- The second file has one extension more than the first.
  have wal : name ++ ".wal" = withExtension name "wal" := by
    rw [withExtension, String.append_assoc]
    rfl
  have dlq : name ++ ".wal" ++ ".dlq" = withExtension name "wal.dlq" := by
    rw [withExtension, String.append_assoc, String.append_assoc]
    rfl
  rw [queueFiles, dlqPath_eq dataDir tenant valid, dlq, walPath_eq dataDir tenant valid, wal]
  simp only [List.mem_cons, List.not_mem_nil, or_false, exists_eq_or_imp, exists_eq_left]

/-- Where names hold no dot, a name with an extension tells both. -/
theorem withExtension_inj {name other extension ending : String} (plain : '.' ∉ name.toList)
    (plainOther : '.' ∉ other.toList)
    (same : withExtension name extension = withExtension other ending) :
    name = other ∧ extension = ending := by
  -- Both names end before the first dot.
  have split : splitOnce '.' (withExtension name extension) = some (name, extension) :=
    splitOnce_append plain
  have splitOther : splitOnce '.' (withExtension other ending) = some (other, ending) :=
    splitOnce_append plainOther
  rw [same, splitOther] at split
  simp only [Option.some.injEq, Prod.mk.injEq] at split
  exact ⟨split.1.symm, split.2.symm⟩

/-- Two callers' directories are different, and neither lies inside the other's files. -/
theorem queueDir_append_inj {dataDir : Location} {first second : Caller} {file other : String}
    (same : queueDir dataDir first ++ [file] = queueDir dataDir second ++ [other]) :
    first = second ∧ file = other := by
  -- Only the local connection has its files in the directory itself.
  obtain ⟨directories, files⟩ := List.append_inj' same rfl
  refine ⟨?_, by simpa using files⟩
  cases first with
  | none =>
    cases second with
    | none => rfl
    | some tenant =>
      rw [queueDir_some] at directories
      simp [queueDir] at directories
  | some tenant =>
    cases second with
    | none =>
      rw [queueDir_some] at directories
      simp [queueDir] at directories
    | some other =>
      rw [queueDir_some, queueDir_some] at directories
      have names : tenant.asStr = other.asStr := by simpa using directories
      exact congrArg some (TenantId.asStr_injective names)

/-- Different callers or different names share no file. -/
theorem queueFiles_disjoint {dataDir : Location} {first second : Caller} {name other : String}
    (valid : ValidName name) (validOther : ValidName other) {location : Location}
    (left : location ∈ queueFiles dataDir first name)
    (right : location ∈ queueFiles dataDir second other) : first = second ∧ name = other := by
  -- The directory tells the caller, and the file the name.
  obtain ⟨extension, _, rfl⟩ := (mem_queueFiles valid).mp left
  obtain ⟨ending, _, same⟩ := (mem_queueFiles validOther).mp right
  obtain ⟨callers, files⟩ := queueDir_append_inj same
  exact ⟨callers, (withExtension_inj (fun member => (valid.apart member).2.2 rfl)
    (fun member => (validOther.apart member).2.2 rfl) files).1⟩

/-- A queue's log is not that of its dead letters. -/
theorem walPath_ne_dlqPath {dataDir : Location} {tenant : Caller} {name : String}
    (valid : ValidName name) :
    walPath dataDir tenant name ≠ dlqPath (walPath dataDir tenant name) := by
  -- The second name is longer.
  rw [dlqPath_eq dataDir tenant valid, walPath_eq dataDir tenant valid]
  intro same
  have files : name ++ ".wal" = name ++ ".wal" ++ ".dlq" := by simpa using same
  have lengths := congrArg String.length files
  simp at lengths

/-- The server's own logs are nobody's queue files. -/
theorem queueFiles_reserved {dataDir : Location} {tenant : Caller} {name : String}
    (valid : ValidName name) {location : Location} (member : location ∈ queueFiles dataDir tenant name) :
    location ≠ apiKeysPath dataDir ∧ location ≠ auditPath dataDir := by
  obtain ⟨extension, known, rfl⟩ := (mem_queueFiles valid).mp member
  have keys : apiKeysPath dataDir = queueDir dataDir none ++ [withExtension "api_keys" "log"] :=
    Location.join_plain dataDir (by decide) (by decide)
  have audit : auditPath dataDir = queueDir dataDir none ++ [withExtension "audit" "log"] :=
    Location.join_plain dataDir (by decide) (by decide)
  -- Their extension is none of those of queue files.
  rw [keys, audit]
  refine ⟨fun same => ?_, fun same => ?_⟩
  · obtain ⟨_, files⟩ := queueDir_append_inj same
    obtain ⟨_, rfl⟩ := withExtension_inj (fun dot => (valid.apart dot).2.2 rfl) (by decide) files
    revert known
    decide
  · obtain ⟨_, files⟩ := queueDir_append_inj same
    obtain ⟨_, rfl⟩ := withExtension_inj (fun dot => (valid.apart dot).2.2 rfl) (by decide) files
    revert known
    decide

/-- A queue's files lie right in the data directory, or right in the tenant's directory below it. -/
theorem queueFiles_inside {dataDir : Location} {tenant : Caller} {name : String}
    (valid : ValidName name) {location : Location} (member : location ∈ queueFiles dataDir tenant name) :
    location.dropLast = dataDir ++ (tenant.map TenantId.asStr).toList := by
  -- Without the file the directory of the caller is left.
  obtain ⟨extension, _, rfl⟩ := (mem_queueFiles valid).mp member
  rw [List.dropLast_concat]
  cases tenant with
  | none => simp [queueDir]
  | some tenant => simp [queueDir_some]

end Qaas
