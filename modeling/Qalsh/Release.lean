/-
  Release.lean --- publication of a version through the release API.

  `ReleasePublisher` makes sure that the tag of a version and its release exist.  It
  looks before it writes, and reads again when a write was refused because somebody
  else came first.  Requests carry the method, the endpoint and the payload that go to
  the API; the answers are whatever the API sends.
-/
import Mathlib
import Qalsh.Foundation.Dialogue

set_option autoImplicit false

namespace Qalsh.Release

open Foundation

/-! ## Decoded JSON -/

/-- What `json.loads` returns; a finite float is `mantissa * 2 ^ exponent`. -/
inductive Json where
  | null
  | bool (value : Bool)
  | int (value : Int)
  | float (mantissa exponent : Int)
  | nan
  | infinity (negative : Bool)
  | str (value : String)
  | arr (items : List Json)
  | obj (members : List (String × Json))

namespace Json

/-- `isinstance(value, Mapping)` -/
def isMapping : Json → Bool
  | .obj _ => true
  | _ => false

/-- `Mapping.get` -/
def get (value : Json) (key : String) : Json :=
  match value with
  | .obj members => (members.lookup key).getD .null
  | _ => .null

/-- `value is True` -/
def isTrue : Json → Bool
  | .bool value => value
  | _ => false

/-- `isinstance(value, str)` -/
def string? : Json → Option String
  | .str value => some value
  | _ => none

/-- `value == text` -/
def isText (value : Json) (text : String) : Bool := value.string? == some text

theorem string?_eq_some {value : Json} {text : String} :
    value.string? = some text ↔ value = .str text := by
  cases value <;> simp [string?]

theorem isText_eq_true {value : Json} {text : String} :
    value.isText text = true ↔ value = .str text := by
  rw [isText, beq_iff_eq, string?_eq_some]

theorem isTrue_eq_true {value : Json} : value.isTrue = true ↔ value = .bool true := by
  cases value <;> simp [isTrue]

end Json

/-! ## Requests -/

inductive Method where
  | get
  | post
  | put
  | patch
  | delete
  deriving DecidableEq, Repr

structure Request where
  method : Method
  endpoint : String
  payload : Option Json

/-- How a call of the client ends. -/
inductive Answer where
  | value (json : Json)
  /-- `ApiError` -/
  | apiError (status : Option Nat) (message : String)
  /-- any other exception of the client -/
  | raised (what : String)

/-- How a call of the publisher ends when it does not return. -/
inductive Raised where
  /-- `ReleaseAutomationError` -/
  | automation (message : String)
  /-- `ApiError` -/
  | apiError (status : Option Nat) (message : String)
  | other (what : String)
  deriving DecidableEq, Repr

/-- A computation of the publisher. -/
abbrev Publishing (α : Type) : Type := EStateM Raised (Dialogue Request Answer) α

/-- `if not condition: raise ReleaseAutomationError(message)` -/
def raiseUnless (condition : Bool) (message : String) : Publishing Unit :=
  if condition then pure () else throw (.automation message)

/-- What Python's `int` makes of a string: the digits of any script are accepted. -/
class PythonInt where
  ofString : String → Option Int

/-! ## Names -/

def digit (c : Char) : Bool := decide ('0' ≤ c) && decide (c ≤ '9')

/-- `_COMPONENT` -/
def isComponent : List Char → Bool
  | [] => false
  | ['0'] => true
  | first :: rest => digit first && first != '0' && rest.all digit

/-- `stable_version` -/
def stableVersion (version : String) : Bool :=
  match version.toList.splitOn '.' with
  | [major, minor, patch] => isComponent major && isComponent minor && isComponent patch
  | _ => false

def releaseTag (version : String) : Except Raised String :=
  if stableVersion version then .ok ("v" ++ version)
  else .error (.automation "release version is not stable numeric SemVer")

def hexDigit (c : Char) : Bool :=
  digit c || (decide ('a' ≤ c) && decide (c ≤ 'f')) || (decide ('A' ≤ c) && decide (c ≤ 'F'))

/-- `_SHA_RE.fullmatch` -/
def isSha (value : String) : Bool := value.length == 40 && value.toList.all hexDigit

/-- `_valid_sha` -/
def validSha (value : String) : Except Raised String :=
  if isSha value then .ok value.toLower
  else .error (.automation "GitHub commit SHA must be exactly 40 hexadecimal characters")

def repoChar (c : Char) : Bool :=
  digit c || (decide ('a' ≤ c) && decide (c ≤ 'z')) || (decide ('A' ≤ c) && decide (c ≤ 'Z')) ||
    c == '_' || c == '.' || c == '-'

/-- `_repo_is_safe` -/
def repoIsSafe (repo : String) : Bool :=
  match repo.toList.splitOn '/' with
  | [owner, name] => owner != [] && name != [] && owner.all repoChar && name.all repoChar
  | _ => false

def releaseMarker (tag commitSha : String) : String :=
  "<!-- qalsh-release-automation:tag=" ++ tag ++ ":commit=" ++ commitSha.toLower ++ " -->"

/-- `marker in body` -/
def containsText (body marker : String) : Bool := decide (marker.toList <:+: body.toList)

def releaseListPageSize : Nat := 100
def releaseListPageLimit : Nat := 10
def latestReleasePolicy : String := "legacy"

/-! ## The publisher -/

/-- A publisher for one repository, whose name has been checked. -/
structure ReleasePublisher where
  repository : String
  safe : repoIsSafe repository = true

/-- The constructor. -/
def ReleasePublisher.new (repository : String) : Except Raised ReleasePublisher :=
  if h : repoIsSafe repository = true then .ok ⟨repository, h⟩
  else .error (.automation "repository must be owner/name")

namespace ReleasePublisher

variable (publisher : ReleasePublisher)

/-- `_endpoint` -/
def endpoint (suffix : String) : String := "/repos/" ++ publisher.repository ++ "/" ++ suffix

/-- A request on an endpoint of the repository. -/
def call (method : Method) (suffix : String) (payload : Option Json) : Request where
  method := method
  endpoint := publisher.endpoint suffix
  payload := payload

/-- `self.api.request` -/
def request (method : Method) (suffix : String) (payload : Option Json) : Publishing Json := do
  match ← ask (publisher.call method suffix payload) with
  | .value json => return json
  | .apiError status message => throw (.apiError status message)
  | .raised what => throw (.other what)

def getTagRef (tag : String) : Publishing Json := do
  let ref ← publisher.request .get ("git/ref/tags/" ++ tag) none
  raiseUnless ref.isMapping "GitHub returned an invalid tag reference"
  return ref

/-- The loop of `_tag_target`, with `hops` turns left. -/
def tagTarget (tag : String) : (hops : Nat) → (current : Json) → Publishing String
  | 0, _ => throw (.automation ("tag " ++ tag ++ " does not resolve to a commit"))
  | hops + 1, current => do
      let unresolved := "tag " ++ tag ++ " does not resolve to a commit"
      raiseUnless current.isMapping unresolved
      match (current.get "sha").string? with
      | none => throw (.automation unresolved)
      | some objectSha =>
          raiseUnless (isSha objectSha) unresolved
          if (current.get "type").isText "commit" then return objectSha.toLower
          else
            raiseUnless ((current.get "type").isText "tag") unresolved
            let tagObject ← publisher.request .get ("git/tags/" ++ objectSha.toLower) none
            raiseUnless tagObject.isMapping "GitHub returned an invalid annotated tag object"
            tagTarget tag hops (tagObject.get "object")

def checkTagTarget (tag : String) (ref : Json) (commitSha : String) : Publishing String := do
  let target ← publisher.tagTarget tag 8 (ref.get "object")
  raiseUnless (target == commitSha)
    ("tag " ++ tag ++ " already resolves to a different commit; refusing to overwrite it")
  return "reused"

/-- The request for an annotated tag object. -/
def tagObject (tag commitSha : String) : Json :=
  .obj [("tag", .str tag), ("message", .str ("chore(release): " ++ tag)),
    ("object", .str commitSha), ("type", .str "commit")]

/-- The request for a tag reference. -/
def tagReference (tag objectSha : String) : Json :=
  .obj [("ref", .str ("refs/tags/" ++ tag)), ("sha", .str objectSha.toLower)]

/-- The `try` block of `ensure_tag`. -/
def createTag (tag commitSha : String) : Publishing String := do
  let createdObject ← publisher.request .post "git/tags" (some (tagObject tag commitSha))
  raiseUnless createdObject.isMapping "GitHub returned an invalid annotated tag object"
  match (createdObject.get "sha").string? with
  | none => throw (.automation "GitHub did not return the annotated tag object SHA")
  | some objectSha =>
      raiseUnless (isSha objectSha) "GitHub did not return the annotated tag object SHA"
      let _ ← publisher.request .post "git/refs" (some (tagReference tag objectSha))
      return "created"

/-- `error.status in (409, 422)` -/
def lostRace (status : Option Nat) : Bool := status == some 409 || status == some 422

def ensureTag (tag commitSha : String) : Publishing String := do
  match ← attempt (publisher.getTagRef tag) with
  | .ok existing => publisher.checkTagTarget tag existing commitSha
  | .error (.apiError (some 404) _) =>
      match ← attempt (publisher.createTag tag commitSha) with
      | .ok action => return action
      | .error (.apiError status message) =>
          if lostRace status then
            let raced ← publisher.getTagRef tag
            publisher.checkTagTarget tag raced commitSha
          else throw (.apiError status message)
      | .error e => throw e
  | .error e => throw e

/-- An entry of the release list for this tag. -/
def isFor (tag : String) (release : Json) : Bool :=
  release.isMapping && (release.get "tag_name").isText tag

/-- The path of one page of the release list. -/
def listSuffix (page : Nat) : String :=
  "releases?per_page=" ++ toString releaseListPageSize ++ "&page=" ++ toString page

/-- The loop over the pages of the release list, with `pages` left. -/
def listReleases (tag : String) : (pages page : Nat) → Publishing (Option Json)
  | 0, _ => throw (.automation ("release list reached the " ++
      toString (releaseListPageLimit * releaseListPageSize) ++
      "-entry safety bound while looking for " ++ tag ++ "; refusing to create a release"))
  | pages + 1, page => do
      match ← publisher.request .get (listSuffix page) none with
      | .arr releases =>
          match releases.find? (isFor tag) with
          | some release => return some release
          | none =>
              if releases.length < releaseListPageSize then return none
              else listReleases tag pages (page + 1)
      | _ => throw (.automation "GitHub returned an invalid release list")

/-- The `try` block of `_get_release`. -/
def publishedRelease (tag : String) : Publishing Json := do
  let published ← publisher.request .get ("releases/tags/" ++ tag) none
  raiseUnless published.isMapping "GitHub returned an invalid release object"
  return published

def getRelease (tag : String) : Publishing (Option Json) := do
  match ← attempt (publisher.publishedRelease tag) with
  | .ok published => return some published
  | .error (.apiError (some 404) _) => publisher.listReleases tag releaseListPageLimit 1
  | .error e => throw e

/-- `int(value)`; a float loses its fraction. -/
def intOf [PythonInt] : Json → Except Raised Int
  | .int value => .ok value
  | .float mantissa exponent =>
      .ok (if 0 ≤ exponent then mantissa * 2 ^ exponent.toNat
        else mantissa.tdiv (2 ^ (-exponent).toNat))
  | .infinity _ => .error (.other "OverflowError: cannot convert float infinity to integer")
  | .str value =>
      match PythonInt.ofString value with
      | some value => .ok value
      | none => .error (.automation "GitHub release has an invalid ID")
  | _ => .error (.automation "GitHub release has an invalid ID")

/-- `_release_id` -/
def releaseId [PythonInt] (release : Json) : Except Raised Int :=
  match release.get "id" with
  | .bool _ => .error (.automation "GitHub release has an invalid ID")
  | value =>
      match intOf value with
      | .ok id =>
          if id ≤ 0 then .error (.automation "GitHub release has an invalid ID") else .ok id
      | .error e => .error e

/-- `_owned_draft` -/
def ownedDraft (release : Json) (commitSha marker : String) : Bool :=
  (match (release.get "body").string? with
    | some body => containsText body marker
    | none => false) &&
  match (release.get "target_commitish").string? with
    | some target => target.toLower == commitSha
    | none => false

/-- The request that publishes a draft. -/
def publication : Json :=
  .obj [("draft", .bool false), ("make_latest", .str latestReleasePolicy)]

def publishOwnedDraft [PythonInt] (release : Json) (tag commitSha marker : String) :
    Publishing String := do
  raiseUnless (!(release.get "prerelease").isTrue)
    ("draft release " ++ tag ++ " is marked prerelease; refusing to modify it")
  raiseUnless (ownedDraft release commitSha marker)
    ("draft release " ++ tag ++ " is not marked as created by this operation; refusing to modify it")
  let id ← liftResult (releaseId release)
  let published ← publisher.request .patch ("releases/" ++ toString id) (some publication)
  raiseUnless published.isMapping "GitHub returned an invalid published release"
  raiseUnless (!((published.get "draft").isTrue || (published.get "prerelease").isTrue))
    ("GitHub did not publish release " ++ tag ++ " as stable")
  return "published-draft"

def handleExisting [PythonInt] (release : Json) (tag commitSha marker : String) :
    Publishing String := do
  raiseUnless release.isMapping "GitHub returned an invalid release object"
  raiseUnless ((release.get "tag_name").isText tag) "GitHub returned a release for the wrong tag"
  if (release.get "draft").isTrue then
    publisher.publishOwnedDraft release tag commitSha marker
  else
    raiseUnless (!(release.get "prerelease").isTrue)
      ("stable tag " ++ tag ++ " already has a prerelease; refusing to overwrite it")
    return "already-published"

/-- The request for a draft with generated notes. -/
def draftRelease (tag commitSha marker : String) : Json :=
  .obj [("tag_name", .str tag), ("target_commitish", .str commitSha), ("name", .str tag),
    ("body", .str marker), ("draft", .bool true), ("prerelease", .bool false),
    ("generate_release_notes", .bool true), ("make_latest", .str latestReleasePolicy)]

/-- The release half of `publish`. -/
def ensureRelease [PythonInt] (tag commitSha marker : String) : Publishing String := do
  match ← publisher.getRelease tag with
  | some release => publisher.handleExisting release tag commitSha marker
  | none =>
      match ← attempt (publisher.request .post "releases"
        (some (draftRelease tag commitSha marker))) with
      | .ok created => publisher.handleExisting created tag commitSha marker
      | .error (.apiError status message) =>
          if lostRace status then
            match ← publisher.getRelease tag with
            | none => throw (.apiError status message)
            | some raced => publisher.handleExisting raced tag commitSha marker
          else throw (.apiError status message)
      | .error e => throw e

def publish [PythonInt] (version commitSha : String) : Publishing String := do
  let tag ← liftResult (releaseTag version)
  let commitSha ← liftResult (validSha commitSha)
  let marker := releaseMarker tag commitSha
  let tagAction ← publisher.ensureTag tag commitSha
  let releaseAction ← publisher.ensureRelease tag commitSha marker
  return "tag=" ++ tagAction ++ " release=" ++ releaseAction ++ " tag_name=" ++ tag

end ReleasePublisher

end Qalsh.Release
