/-
  ReleaseRun.lean --- every write of a publication carries its evidence.

  The API may answer anything, and differently each time.  What can be said of a run is
  what its requests rest on: the exchanges that came before them.  `Lawful` lists the
  grounds of each kind of request, and every run of `publish` keeps to them, whether it
  returns or fails on the way.
-/
import Qalsh.Release

set_option autoImplicit false

namespace Qalsh.Release

open Foundation

/-- The exchanges of a run so far. -/
abbrev Log : Type := List (Request × Answer)

namespace ReleasePublisher

variable (publisher : ReleasePublisher) (tag commitSha : String)

/-! ## Evidence -/

/-- A request of the publisher was answered so. -/
def Asked (log : Log) (method : Method) (suffix : String) (payload : Option Json)
    (answer : Answer) : Prop :=
  (publisher.call method suffix payload, answer) ∈ log

/-- A lookup of the tag returned 404. -/
def TagAbsent (log : Log) : Prop :=
  ∃ message, publisher.Asked log .get ("git/ref/tags/" ++ tag) none (.apiError (some 404) message)

/-- The tag was created for the commit: the API made a tag object for it, and a reference
to that object. -/
def Created (log : Log) : Prop :=
  ∃ object objectSha reply,
    publisher.Asked log .post "git/tags" (some (tagObject tag commitSha)) (.value object) ∧
    object.get "sha" = .str objectSha ∧
    publisher.Asked log .post "git/refs" (some (tagReference tag objectSha)) (.value reply)

/-- An object of the repository leads to the commit: it is the commit, or a tag whose
target was read and leads there.  The number bounds the objects on the way. -/
inductive Resolves (log : Log) : Nat → Json → Prop
  | commit {hops : Nat} {object : Json} {sha : String} (hsha : object.get "sha" = .str sha)
      (htype : object.get "type" = .str "commit") (hcommit : sha.toLower = commitSha) :
      Resolves log (hops + 1) object
  | tag {hops : Nat} {object target : Json} {sha : String} (hsha : object.get "sha" = .str sha)
      (htype : object.get "type" = .str "tag")
      (hread : publisher.Asked log .get ("git/tags/" ++ sha.toLower) none (.value target))
      (hrest : Resolves log hops (target.get "object")) : Resolves log (hops + 1) object

/-- The tag is known to name the commit. -/
def TagSettled (log : Log) : Prop :=
  publisher.Created tag commitSha log ∨
    ∃ ref, publisher.Asked log .get ("git/ref/tags/" ++ tag) none (.value ref) ∧
      publisher.Resolves commitSha log 8 (ref.get "object")

/-- The lookup of the release of the tag. -/
def lookup : Request := publisher.call .get ("releases/tags/" ++ tag) none

/-- The request for one page of the release list. -/
def listPage (page : Nat) : Request := publisher.call .get (listSuffix page) none

/-- The request for a draft of the tag and the commit. -/
def creation : Request :=
  publisher.call .post "releases" (some (draftRelease tag commitSha (releaseMarker tag commitSha)))

/-- Pages of the release list, read from the first one on. -/
def listing (pages : List (List Json)) : Log :=
  pages.zipIdx.map fun page => (publisher.listPage (page.2 + 1), .value (.arr page.1))

/-- A listing that ended with a short page and has no release of the tag. -/
structure CompleteListing (pages : List (List Json)) : Prop where
  full : ∀ page ∈ pages.dropLast, releaseListPageSize ≤ page.length
  short : ∃ last, pages.getLast? = some last ∧ last.length < releaseListPageSize
  absent : ∀ page ∈ pages, ∀ release ∈ page, isFor tag release = false

/-- The last exchanges are a lookup of the release that returned 404 and a complete
listing without it. -/
def ReleaseAbsent (log : Log) : Prop :=
  ∃ before message pages,
    log = before ++ (publisher.lookup tag, .apiError (some 404) message) :: publisher.listing pages ∧
      CompleteListing tag pages

/-- An answer shows a release for the tag: the one found by the tag, the first one of a
page that is listed under it, or the one just created. -/
def Shows (request : Request) (answer : Answer) (release : Json) : Prop :=
  (request = publisher.lookup tag ∧ answer = .value release) ∨
  (∃ page releases, request = publisher.listPage page ∧ answer = .value (.arr releases) ∧
    releases.find? (isFor tag) = some release) ∨
  (request = publisher.creation tag commitSha ∧ answer = .value release)

/-- Whatever was shown for the tag was a draft. -/
def NothingPublished (log : Log) : Prop :=
  ∀ exchange ∈ log, ∀ release, publisher.Shows tag commitSha exchange.1 exchange.2 release →
    isFor tag release = true → release.get "draft" = .bool true

/-- A draft that this operation made, with its id. -/
structure OwnDraft [PythonInt] (release : Json) (id : Int) : Prop where
  named : isFor tag release = true
  draft : release.get "draft" = .bool true
  prerelease : release.get "prerelease" ≠ .bool true
  marked : ∃ body, release.get "body" = .str body ∧
    (releaseMarker tag commitSha).toList <:+: body.toList
  target : ∃ target, release.get "target_commitish" = .str target ∧ target.toLower = commitSha
  id_eq : intOf (release.get "id") = .ok id
  id_int : ∀ value, release.get "id" ≠ .bool value
  id_pos : 0 < id

/-- A request that changes releases. -/
def WritesRelease (request : Request) : Prop :=
  request.method ≠ .get ∧ ∃ suffix, request.endpoint = publisher.endpoint ("releases" ++ suffix)

/-- What a request rests on, given what was said before it. -/
structure Lawful [PythonInt] (done : Log) (request : Request) : Prop where
  /-- nothing is deleted or put, and only these are posted or patched -/
  kind : request.method = .get ∨
    (request.method = .post ∧ (request.endpoint = publisher.endpoint "git/tags" ∨
      request.endpoint = publisher.endpoint "git/refs" ∨
      request.endpoint = publisher.endpoint "releases")) ∨
    (request.method = .patch ∧ ∃ id : Int,
      request.endpoint = publisher.endpoint ("releases/" ++ toString id))
  /-- no request moves or deletes a tag -/
  keepsTags : request.method ≠ .get → request.method ≠ .post → ∀ suffix,
    request.endpoint ≠ publisher.endpoint ("git/" ++ suffix)
  reference : request.method = .post → request.endpoint = publisher.endpoint "git/refs" →
    publisher.TagAbsent tag done ∧ ∃ objectSha, request.payload = some (tagReference tag objectSha)
  settled : publisher.WritesRelease request → publisher.TagSettled tag commitSha done
  absent : request.method = .post → request.endpoint = publisher.endpoint "releases" →
    request = publisher.creation tag commitSha ∧ publisher.ReleaseAbsent tag done
  owned : request.method = .patch → ∃ before shown answer release id,
    done = before ++ [(shown, answer)] ∧ publisher.Shows tag commitSha shown answer release ∧
    OwnDraft tag commitSha release id ∧
    request.endpoint = publisher.endpoint ("releases/" ++ toString id)
  /-- a published release ends the requests -/
  published : publisher.NothingPublished tag commitSha done

variable {publisher} {tag commitSha}

/-! ## Endpoints -/

theorem endpoint_inj {s t : String} (h : publisher.endpoint s = publisher.endpoint t) : s = t := by
  have h := congrArg String.toList h
  simp only [endpoint, String.toList_append, List.append_assoc, List.append_cancel_left_eq] at h
  exact String.toList_inj.mp h

theorem git_ne_releases (s t : String) : "git/" ++ s ≠ "releases" ++ t := by
  intro h
  have h := congrArg (fun text : String => text.toList.head?) h
  simp at h

theorem found_ne_listed (s t : String) : "releases/" ++ s ≠ "releases?" ++ t := by
  intro h
  have h := congrArg (fun text : String => text.toList[8]?) h
  simp at h

theorem lookup_ne_listPage (page : Nat) : publisher.lookup tag ≠ publisher.listPage page := by
  intro h
  have h := endpoint_inj (congrArg Request.endpoint h)
  refine found_ne_listed ("tags/" ++ tag) ("per_page=" ++ toString releaseListPageSize ++ "&page=" ++
    toString page) ?_
  rw [← String.append_assoc, ← String.append_assoc, ← String.append_assoc, ← String.append_assoc]
  exact h

/-- What shows a release was sent to the releases. -/
theorem Shows.suffix {request : Request} {answer : Answer} {release : Json}
    (h : publisher.Shows tag commitSha request answer release) :
    ∃ s, request.endpoint = publisher.endpoint ("releases" ++ s) := by
  obtain ⟨rfl, -⟩ | ⟨page, -, rfl, -⟩ | ⟨rfl, -⟩ := h
  · exact ⟨"/tags/" ++ tag, by rw [← String.append_assoc]; rfl⟩
  · refine ⟨"?per_page=" ++ toString releaseListPageSize ++ "&page=" ++ toString page, ?_⟩
    rw [← String.append_assoc, ← String.append_assoc, ← String.append_assoc]
    rfl
  · exact ⟨"", rfl⟩

/-- An exchange shows at most one release. -/
theorem Shows.unique {request : Request} {answer : Answer} {release release' : Json}
    (h : publisher.Shows tag commitSha request answer release)
    (h' : publisher.Shows tag commitSha request answer release') : release = release' := by
  have hmethod : ∀ page, publisher.listPage page ≠ publisher.creation tag commitSha := by
    intro page heq
    cases congrArg Request.method heq
  obtain ⟨rfl, rfl⟩ | ⟨page, releases, rfl, rfl, hfind⟩ | ⟨rfl, rfl⟩ := h
  · obtain ⟨-, heq⟩ | ⟨page', -, heq, -⟩ | ⟨-, heq⟩ := h'
    · exact Answer.value.inj heq
    · exact absurd heq (lookup_ne_listPage page')
    · exact Answer.value.inj heq
  · obtain ⟨heq, -⟩ | ⟨-, releases', -, heq, hfind'⟩ | ⟨heq, -⟩ := h'
    · exact absurd heq.symm (lookup_ne_listPage page)
    · rw [← Json.arr.inj (Answer.value.inj heq)] at hfind'
      exact Option.some.inj (hfind.symm.trans hfind')
    · exact absurd heq (hmethod page)
  · obtain ⟨-, heq⟩ | ⟨page', -, heq, -⟩ | ⟨-, heq⟩ := h'
    · exact Answer.value.inj heq
    · exact absurd heq.symm (hmethod page')
    · exact Answer.value.inj heq

/-! ## Evidence lasts -/

theorem Resolves.mono {log log' : Log} (hlog : log ⊆ log') {hops : Nat} {object : Json}
    (h : publisher.Resolves commitSha log hops object) :
    publisher.Resolves commitSha log' hops object := by
  induction h with
  | commit hsha htype hcommit => exact .commit hsha htype hcommit
  | tag hsha htype hread _ ih => exact .tag hsha htype (hlog hread) ih

theorem TagSettled.mono {log log' : Log} (hlog : log ⊆ log')
    (h : publisher.TagSettled tag commitSha log) : publisher.TagSettled tag commitSha log' := by
  obtain ⟨object, objectSha, reply, hobject, hsha, href⟩ | ⟨ref, href, hresolves⟩ := h
  · exact Or.inl ⟨object, objectSha, reply, hlog hobject, hsha, hlog href⟩
  · exact Or.inr ⟨ref, hlog href, hresolves.mono hlog⟩

theorem NothingPublished.nil : publisher.NothingPublished tag commitSha [] :=
  fun _ hmem => absurd hmem List.not_mem_nil

theorem NothingPublished.concat {log : Log} (h : publisher.NothingPublished tag commitSha log)
    {request : Request} {answer : Answer}
    (hlast : ∀ release, publisher.Shows tag commitSha request answer release →
      isFor tag release = true → release.get "draft" = .bool true) :
    publisher.NothingPublished tag commitSha (log ++ [(request, answer)]) := by
  intro exchange hmem release hshows hfor
  obtain hmem | hmem := List.mem_append.mp hmem
  · exact h exchange hmem release hshows hfor
  · obtain rfl := List.mem_singleton.mp hmem
    exact hlast release hshows hfor

/-- Exchanges about tags show no release. -/
theorem NothingPublished.concat_git {log : Log} (h : publisher.NothingPublished tag commitSha log)
    {request : Request} {answer : Answer} {s : String}
    (hgit : request.endpoint = publisher.endpoint ("git/" ++ s)) :
    publisher.NothingPublished tag commitSha (log ++ [(request, answer)]) := by
  refine h.concat fun release hshows _ => ?_
  obtain ⟨t, ht⟩ := hshows.suffix
  exact absurd (endpoint_inj (hgit.symm.trans ht)) (git_ne_releases s t)

/-- Exchanges that ended with an exception show no release. -/
theorem NothingPublished.concat_failed {log : Log}
    (h : publisher.NothingPublished tag commitSha log) {request : Request} {answer : Answer}
    (hfailed : ∀ json, answer ≠ .value json) :
    publisher.NothingPublished tag commitSha (log ++ [(request, answer)]) := by
  refine h.concat fun release hshows _ => ?_
  obtain ⟨-, heq⟩ | ⟨page, releases, -, heq, -⟩ | ⟨-, heq⟩ := hshows
  · exact absurd heq (hfailed _)
  · exact absurd heq (hfailed _)
  · exact absurd heq (hfailed _)

/-! ## Calls -/

section Calls

variable {α : Type} {P : Log → Request → Prop} {I J : Log → Prop}

/-- What is known after any exception. -/
def Failed (P : Log → Request → Prop) (_ : Raised) : Dialogue Request Answer → Prop :=
  Says P fun _ => True

theorem request_spec {method : Method} {suffix : String} {payload : Option Json}
    (hgrounds : ∀ log, I log → P log (publisher.call method suffix payload)) :
    Triple (Says P I) (publisher.request method suffix payload)
      (fun json => Says P fun log => ∃ before,
        log = before ++ [(publisher.call method suffix payload, .value json)] ∧ I before)
      (fun e => Says P fun log => ∃ before answer,
        log = before ++ [(publisher.call method suffix payload, answer)] ∧ I before ∧
        (∀ json, answer ≠ .value json) ∧
        ∀ status message, e = .apiError status message → answer = .apiError status message) := by
  refine Triple.bind (ask_spec hgrounds) fun answer => ?_
  cases answer with
  | value json => exact Triple.pure fun _ h => h
  | apiError status message =>
      refine Triple.throw fun dialogue h => h.mono fun log hlog => ?_
      obtain ⟨before, rfl, hI⟩ := hlog
      refine ⟨before, _, rfl, hI, fun json heq => (by cases heq), fun status' message' heq => ?_⟩
      cases heq
      rfl
  | raised what =>
      refine Triple.throw fun dialogue h => h.mono fun log hlog => ?_
      obtain ⟨before, rfl, hI⟩ := hlog
      exact ⟨before, _, rfl, hI, fun json heq => (by cases heq), fun _ _ heq => (by cases heq)⟩

theorem raiseUnless_spec {R : Dialogue Request Answer → Prop}
    {E : Raised → Dialogue Request Answer → Prop} {condition : Bool} {message : String}
    (hfail : ∀ dialogue, R dialogue → E (.automation message) dialogue) :
    Triple R (raiseUnless condition message) (fun _ dialogue => condition = true ∧ R dialogue) E := by
  unfold raiseUnless
  split
  · rename_i h
    exact Triple.pure fun _ hR => ⟨h, hR⟩
  · exact Triple.throw hfail

/-- A check before the rest of a computation. -/
theorem raiseUnless_bind {R : Dialogue Request Answer → Prop}
    {E : Raised → Dialogue Request Answer → Prop} {Q : α → Dialogue Request Answer → Prop}
    {condition : Bool} {message : String} {rest : Publishing α}
    (hfail : ∀ dialogue, R dialogue → E (.automation message) dialogue)
    (hrest : condition = true → Triple R rest Q E) :
    Triple R (raiseUnless condition message >>= fun _ => rest) Q E :=
  Triple.bind (raiseUnless_spec hfail) fun _ => Triple.assume hrest

end Calls

/-! ## The tag -/

section Tag

variable [PythonInt]

/-- Reading is always lawful, as long as no published release has been shown. -/
theorem lawful_get {log : Log} (h : publisher.NothingPublished tag commitSha log) (suffix : String) :
    publisher.Lawful tag commitSha log (publisher.call .get suffix none) where
  kind := Or.inl rfl
  keepsTags hget := absurd rfl hget
  reference hpost := by cases hpost
  settled hwrites := absurd rfl hwrites.1
  absent hpost := by cases hpost
  owned hpatch := by cases hpatch
  published := h

/-- Posting a tag object or a reference changes no release. -/
theorem lawful_post_git {log : Log} (h : publisher.NothingPublished tag commitSha log)
    (suffix : String) {payload : Option Json} (hsuffix : suffix = "tags" ∨ suffix = "refs")
    (hreference : suffix = "refs" → publisher.TagAbsent tag log ∧
      ∃ objectSha, payload = some (tagReference tag objectSha)) :
    publisher.Lawful tag commitSha log (publisher.call .post ("git/" ++ suffix) payload) where
  kind := by
    refine Or.inr (Or.inl ⟨rfl, ?_⟩)
    rcases hsuffix with rfl | rfl
    · exact Or.inl rfl
    · exact Or.inr (Or.inl rfl)
  keepsTags _ hpost := absurd rfl hpost
  reference _ heq := by
    have heq := endpoint_inj (t := "git/" ++ "refs") heq
    rcases hsuffix with rfl | rfl
    · exact absurd heq (by decide)
    · exact hreference rfl
  settled hwrites := by
    obtain ⟨-, t, ht⟩ := hwrites
    exact absurd (endpoint_inj ht) (git_ne_releases suffix t)
  absent _ heq := absurd (endpoint_inj heq) (git_ne_releases suffix "")
  owned hpatch := by cases hpatch
  published := h

theorem getTagRef_spec :
    Triple (Says (publisher.Lawful tag commitSha) (publisher.NothingPublished tag commitSha))
      (publisher.getTagRef tag)
      (fun ref => Says (publisher.Lawful tag commitSha) fun log =>
        publisher.NothingPublished tag commitSha log ∧
        publisher.Asked log .get ("git/ref/tags/" ++ tag) none (.value ref))
      (fun e => Says (publisher.Lawful tag commitSha) fun log =>
        publisher.NothingPublished tag commitSha log ∧
        ∀ message, e = .apiError (some 404) message → publisher.TagAbsent tag log) := by
  have hgit : publisher.endpoint ("git/ref/tags/" ++ tag) =
      publisher.endpoint ("git/" ++ ("ref/tags/" ++ tag)) := by
    rw [← String.append_assoc]
    rfl
  unfold getTagRef
  refine Triple.bind (M := fun ref => Says (publisher.Lawful tag commitSha) fun log =>
    publisher.NothingPublished tag commitSha log ∧
      publisher.Asked log .get ("git/ref/tags/" ++ tag) none (.value ref))
    ((request_spec fun log hlog => lawful_get hlog _).consequence (fun _ h => h) (fun ref _ h =>
      h.mono fun log hlog => ?_) fun e _ h => h.mono fun log hlog => ?_) fun ref =>
    raiseUnless_bind (fun _ h => h.mono fun log hlog => ⟨hlog.1, fun _ heq => (by cases heq)⟩) fun _ =>
      Triple.pure fun _ h => h
  · obtain ⟨before, rfl, hcalm⟩ := hlog
    exact ⟨hcalm.concat_git hgit, List.mem_append_right _ List.mem_cons_self⟩
  · obtain ⟨before, answer, rfl, hcalm, -, hstatus⟩ := hlog
    refine ⟨hcalm.concat_git hgit, fun message heq => ⟨message, ?_⟩⟩
    rw [hstatus _ _ heq]
    exact List.mem_append_right _ List.mem_cons_self

/-- What is read stays known while more is said. -/
def Lasting (J : Log → Prop) : Prop := ∀ log exchange, J log → J (log ++ [exchange])

/-- The loop of `_tag_target` returns only what the object leads to. -/
theorem tagTarget_spec (hops : Nat) : ∀ {J : Log → Prop}, Lasting J → ∀ current : Json,
    Triple (Says (publisher.Lawful tag commitSha) fun log =>
        publisher.NothingPublished tag commitSha log ∧ J log)
      (publisher.tagTarget tag hops current)
      (fun target => Says (publisher.Lawful tag commitSha) fun log =>
        publisher.NothingPublished tag commitSha log ∧ J log ∧
        publisher.Resolves target log hops current)
      (Failed (publisher.Lawful tag commitSha)) := by
  induction hops with
  | zero =>
      intro J _ current
      exact Triple.throw fun _ h => h.mono fun _ _ => trivial
  | succ hops ih =>
      intro J hJ current
      have hfail : ∀ {e : Raised} (dialogue : Dialogue Request Answer),
          Says (publisher.Lawful tag commitSha) (fun log =>
            publisher.NothingPublished tag commitSha log ∧ J log) dialogue →
          Failed (publisher.Lawful tag commitSha) e dialogue :=
        fun _ h => h.mono fun _ _ => trivial
      unfold tagTarget
      refine raiseUnless_bind hfail fun _ => ?_
      cases hsha : (current.get "sha").string? with
      | none => exact Triple.throw hfail
      | some objectSha =>
          have hsha := Json.string?_eq_some.mp hsha
          refine raiseUnless_bind hfail fun _ => ?_
          split
          · rename_i htype
            exact Triple.pure fun _ h => h.mono fun log hlog =>
              ⟨hlog.1, hlog.2, .commit hsha (Json.isText_eq_true.mp htype) rfl⟩
          · refine raiseUnless_bind hfail fun htype => ?_
            have htype := Json.isText_eq_true.mp htype
            have hgit : publisher.endpoint ("git/tags/" ++ objectSha.toLower) =
                publisher.endpoint ("git/" ++ ("tags/" ++ objectSha.toLower)) := by
              rw [← String.append_assoc]
              rfl
            refine Triple.bind ((request_spec fun log hlog => lawful_get hlog.1 _).consequence
              (fun _ h => h) (fun _ _ h => h) fun _ _ h => h.mono fun _ _ => trivial) fun object => ?_
            refine raiseUnless_bind (fun _ h => h.mono fun _ _ => trivial) fun _ => ?_
            have hlasting : Lasting fun log => J log ∧ publisher.Asked log .get
                ("git/tags/" ++ objectSha.toLower) none (.value object) :=
              fun log exchange h => ⟨hJ log exchange h.1, List.mem_append_left _ h.2⟩
            refine (ih hlasting (object.get "object")).consequence (fun _ h => h.mono fun log hlog => ?_)
              (fun target _ h => h.mono fun log hlog => ?_) fun _ _ h => h
            · obtain ⟨before, rfl, hcalm, hbefore⟩ := hlog
              exact ⟨hcalm.concat_git hgit, hJ _ _ hbefore,
                List.mem_append_right _ List.mem_cons_self⟩
            · exact ⟨hlog.1, hlog.2.1.1, .tag hsha htype hlog.2.1.2 hlog.2.2⟩

theorem checkTagTarget_spec (ref : Json) :
    Triple (Says (publisher.Lawful tag commitSha) fun log =>
        publisher.NothingPublished tag commitSha log ∧
        publisher.Asked log .get ("git/ref/tags/" ++ tag) none (.value ref))
      (publisher.checkTagTarget tag ref commitSha)
      (fun _ => Says (publisher.Lawful tag commitSha) fun log =>
        publisher.NothingPublished tag commitSha log ∧ publisher.TagSettled tag commitSha log)
      (Failed (publisher.Lawful tag commitSha)) := by
  have hlasting : Lasting fun log =>
      publisher.Asked log .get ("git/ref/tags/" ++ tag) none (.value ref) :=
    fun log exchange h => List.mem_append_left _ h
  unfold checkTagTarget
  refine Triple.bind (tagTarget_spec 8 hlasting _) fun target => ?_
  refine raiseUnless_bind (fun _ h => h.mono fun _ _ => trivial) fun htarget => ?_
  obtain rfl := beq_iff_eq.mp htarget
  exact Triple.pure fun _ h => h.mono fun log hlog =>
    ⟨hlog.1, Or.inr ⟨ref, hlog.2.1, hlog.2.2⟩⟩

/-- Making the tag, once it is known to be absent. -/
theorem createTag_spec :
    Triple (Says (publisher.Lawful tag commitSha) fun log =>
        publisher.NothingPublished tag commitSha log ∧ publisher.TagAbsent tag log)
      (publisher.createTag tag commitSha)
      (fun _ => Says (publisher.Lawful tag commitSha) fun log =>
        publisher.NothingPublished tag commitSha log ∧ publisher.TagSettled tag commitSha log)
      (fun _ => Says (publisher.Lawful tag commitSha) (publisher.NothingPublished tag commitSha)) := by
  unfold createTag
  have hobject : ∀ log, publisher.NothingPublished tag commitSha log ∧ publisher.TagAbsent tag log →
      publisher.Lawful tag commitSha log
        (publisher.call .post "git/tags" (some (tagObject tag commitSha))) := fun log hlog =>
    lawful_post_git hlog.1 "tags" (Or.inl rfl) fun heq => absurd heq (by decide)
  refine Triple.bind ((request_spec hobject).consequence (fun _ h => h) (fun _ _ h => h)
    fun _ _ h => h.mono fun log hlog => ?_) fun object => ?_
  · obtain ⟨before, answer, rfl, hbefore, -⟩ := hlog
    exact hbefore.1.concat_git (s := "tags") rfl
  have hfail : ∀ dialogue : Dialogue Request Answer,
      Says (publisher.Lawful tag commitSha) (fun log => ∃ before, log = before ++
        [(publisher.call .post "git/tags" (some (tagObject tag commitSha)), .value object)] ∧
        publisher.NothingPublished tag commitSha before ∧ publisher.TagAbsent tag before) dialogue →
      Says (publisher.Lawful tag commitSha) (publisher.NothingPublished tag commitSha) dialogue := by
    intro dialogue h
    refine h.mono fun log hlog => ?_
    obtain ⟨before, rfl, hbefore⟩ := hlog
    exact hbefore.1.concat_git (s := "tags") rfl
  refine raiseUnless_bind hfail fun _ => ?_
  cases hsha : (object.get "sha").string? with
  | none => exact Triple.throw hfail
  | some objectSha =>
      have hsha := Json.string?_eq_some.mp hsha
      refine raiseUnless_bind hfail fun _ => ?_
      have hreference : ∀ log, (∃ before, log = before ++
          [(publisher.call .post "git/tags" (some (tagObject tag commitSha)), .value object)] ∧
          publisher.NothingPublished tag commitSha before ∧ publisher.TagAbsent tag before) →
          publisher.Lawful tag commitSha log
            (publisher.call .post "git/refs" (some (tagReference tag objectSha))) := by
        rintro log ⟨before, rfl, hcalm, message, habsent⟩
        exact lawful_post_git (hcalm.concat_git (s := "tags") rfl) "refs" (Or.inr rfl)
          fun _ => ⟨⟨message, List.mem_append_left _ habsent⟩, objectSha, rfl⟩
      refine Triple.bind (request_spec hreference |>.consequence (fun _ h => h) (fun _ _ h => h)
        fun _ _ h => h.mono fun log hlog => ?_) fun reply => Triple.pure fun _ h => h.mono fun log hlog => ?_
      · obtain ⟨_, answer, rfl, ⟨before, rfl, hbefore⟩, -⟩ := hlog
        exact (hbefore.1.concat_git (s := "tags") rfl).concat_git (s := "refs") rfl
      · obtain ⟨_, rfl, before, rfl, hbefore⟩ := hlog
        refine ⟨(hbefore.1.concat_git (s := "tags") rfl).concat_git (s := "refs") rfl,
          Or.inl ⟨object, objectSha, reply, ?_, hsha, List.mem_append_right _ List.mem_cons_self⟩⟩
        exact List.mem_append_left _ (List.mem_append_right _ List.mem_cons_self)

/-- `ensure_tag` returns only when the tag is settled. -/
theorem ensureTag_spec :
    Triple (Says (publisher.Lawful tag commitSha) (publisher.NothingPublished tag commitSha))
      (publisher.ensureTag tag commitSha)
      (fun _ => Says (publisher.Lawful tag commitSha) fun log =>
        publisher.NothingPublished tag commitSha log ∧ publisher.TagSettled tag commitSha log)
      (Failed (publisher.Lawful tag commitSha)) := by
  unfold ensureTag
  refine Triple.bind (Triple.attempt getTagRef_spec) fun result => ?_
  split
  · exact (checkTagTarget_spec _).consequence (fun _ h => h.1 _ rfl) (fun _ _ h => h) fun _ _ h => h
  · refine Triple.bind ((Triple.attempt createTag_spec).consequence
      (fun _ h => (h.2 _ rfl).mono fun log hlog => ⟨hlog.1, hlog.2 _ rfl⟩) (fun _ _ h => h)
      fun _ _ h => h) fun result => ?_
    split
    · exact Triple.pure fun _ h => h.1 _ rfl
    · split
      · refine Triple.bind (getTagRef_spec.consequence (fun _ h => h.2 _ rfl) (fun _ _ h => h)
          fun _ _ h => h.mono fun _ _ => trivial) fun raced => checkTagTarget_spec raced
      · exact Triple.throw fun _ h => (h.2 _ rfl).mono fun _ _ => trivial
    · exact Triple.throw fun _ h => (h.2 _ rfl).mono fun _ _ => trivial
  · exact Triple.throw fun _ h => (h.2 _ rfl).mono fun _ _ => trivial

end Tag

/-! ## The release -/

section Release

variable [PythonInt]

/-- The last answer shows a release for the tag; nothing published was shown before. -/
def Handed (publisher : ReleasePublisher) (tag commitSha : String) (release : Json) (log : Log) :
    Prop :=
  ∃ before request answer, log = before ++ [(request, answer)] ∧
    publisher.NothingPublished tag commitSha before ∧
    publisher.Shows tag commitSha request answer release ∧ publisher.TagSettled tag commitSha log

/-- Nothing published was shown, and the tag is settled. -/
def Ready (publisher : ReleasePublisher) (tag commitSha : String) (log : Log) : Prop :=
  publisher.NothingPublished tag commitSha log ∧ publisher.TagSettled tag commitSha log

omit [PythonInt] in
theorem ownedDraft_spec {release : Json} {marker : String}
    (h : ownedDraft release commitSha marker = true) :
    (∃ body, release.get "body" = .str body ∧ marker.toList <:+: body.toList) ∧
      ∃ target, release.get "target_commitish" = .str target ∧ target.toLower = commitSha := by
  obtain ⟨hbody, htarget⟩ := Bool.and_eq_true_iff.mp h
  constructor
  · split at hbody
    · rename_i body hstring
      exact ⟨body, Json.string?_eq_some.mp hstring, of_decide_eq_true hbody⟩
    · cases hbody
  · split at htarget
    · rename_i target hstring
      exact ⟨target, Json.string?_eq_some.mp hstring, beq_iff_eq.mp htarget⟩
    · cases htarget

theorem releaseId_spec {release : Json} {id : Int} (h : releaseId release = .ok id) :
    intOf (release.get "id") = .ok id ∧ (∀ value, release.get "id" ≠ .bool value) ∧ 0 < id := by
  unfold releaseId at h
  split at h
  · cases h
  · rename_i hbool
    split at h
    · rename_i value hint
      split at h
      · cases h
      · rename_i hpos
        cases h
        exact ⟨hint, hbool, by omega⟩
    · cases h

/-- A draft of this operation that was just shown may be published. -/
theorem lawful_patch {log : Log} {release : Json} {id : Int}
    (h : publisher.Handed tag commitSha release log) (hown : OwnDraft tag commitSha release id)
    (payload : Option Json) :
    publisher.Lawful tag commitSha log
      (publisher.call .patch ("releases/" ++ toString id) payload) := by
  obtain ⟨before, request, answer, rfl, hcalm, hshows, hsettled⟩ := h
  refine ⟨Or.inr (Or.inr ⟨rfl, id, rfl⟩), fun _ _ suffix heq => ?_, fun hpost => (by cases hpost),
    fun _ => hsettled, fun hpost => (by cases hpost),
    fun _ => ⟨before, request, answer, release, id, rfl, hshows, hown, rfl⟩, ?_⟩
  · refine git_ne_releases suffix ("/" ++ toString id) ?_
    rw [← String.append_assoc]
    exact (endpoint_inj heq).symm
  · exact hcalm.concat fun release' hshows' _ => hshows.unique hshows' ▸ hown.draft

theorem handleExisting_spec (release : Json) :
    Triple (Says (publisher.Lawful tag commitSha) (publisher.Handed tag commitSha release))
      (publisher.handleExisting release tag commitSha (releaseMarker tag commitSha))
      (fun _ => Says (publisher.Lawful tag commitSha) fun _ => True)
      (Failed (publisher.Lawful tag commitSha)) := by
  have hfail : ∀ {e : Raised} (dialogue : Dialogue Request Answer),
      Says (publisher.Lawful tag commitSha) (publisher.Handed tag commitSha release) dialogue →
      Failed (publisher.Lawful tag commitSha) e dialogue := fun _ h => h.mono fun _ _ => trivial
  have hdone : ∀ {e : Raised} (dialogue : Dialogue Request Answer),
      Says (publisher.Lawful tag commitSha) (fun _ => True) dialogue →
      Failed (publisher.Lawful tag commitSha) e dialogue := fun _ h => h
  unfold handleExisting
  refine raiseUnless_bind hfail fun hmapping => raiseUnless_bind hfail fun htag => ?_
  split
  · rename_i hdraft
    unfold publishOwnedDraft
    refine raiseUnless_bind hfail fun hprerelease => raiseUnless_bind hfail fun howned => ?_
    obtain ⟨hmarked, htarget⟩ := ownedDraft_spec howned
    refine Triple.bind (Triple.liftResult (Q := fun id dialogue => releaseId release = .ok id ∧
      Says (publisher.Lawful tag commitSha) (publisher.Handed tag commitSha release) dialogue)
      (fun id hid _ h => ⟨hid, h⟩) fun _ _ => hfail) fun id => Triple.assume fun hid => ?_
    obtain ⟨hint, hbool, hpos⟩ := releaseId_spec hid
    have hown : OwnDraft tag commitSha release id :=
      { named := Bool.and_eq_true_iff.mpr ⟨hmapping, htag⟩
        draft := Json.isTrue_eq_true.mp hdraft
        prerelease := fun heq => by
          rw [heq] at hprerelease
          cases hprerelease
        marked := hmarked
        target := htarget
        id_eq := hint
        id_int := hbool
        id_pos := hpos }
    refine Triple.bind ((request_spec fun log hlog => lawful_patch hlog hown _).consequence
      (fun _ h => h) (fun _ _ h => h.mono fun _ _ => trivial)
      fun _ _ h => h.mono fun _ _ => trivial) fun published => ?_
    exact raiseUnless_bind hdone fun _ => raiseUnless_bind hdone fun _ => Triple.pure fun _ h => h
  · exact raiseUnless_bind hfail fun _ => Triple.pure fun _ h => h.mono fun _ _ => trivial

/-- The state of the search through the release list after some pages. -/
def Searched (publisher : ReleasePublisher) (tag commitSha : String) (seen : List (List Json))
    (log : Log) : Prop :=
  (∃ before message,
    log = before ++ (publisher.lookup tag, .apiError (some 404) message) :: publisher.listing seen) ∧
  publisher.Ready tag commitSha log

/-- What the search for a release hands over. -/
def Found (publisher : ReleasePublisher) (tag commitSha : String) (result : Option Json) (log : Log) :
    Prop :=
  (∀ release, result = some release → publisher.Handed tag commitSha release log) ∧
  (result = none → publisher.Ready tag commitSha log ∧ publisher.ReleaseAbsent tag log)

omit [PythonInt] in
theorem listing_concat (seen : List (List Json)) (releases : List Json) :
    publisher.listing (seen ++ [releases]) = publisher.listing seen ++
      [(publisher.listPage (seen.length + 1), .value (.arr releases))] := by
  simp [listing, List.zipIdx_append]

/-- One more page of the list, then the rest: `seen` has been read. -/
theorem listReleases_spec (pages : Nat) : ∀ seen : List (List Json),
    (∀ page ∈ seen, releaseListPageSize ≤ page.length) →
    (∀ page ∈ seen, ∀ release ∈ page, isFor tag release = false) →
    Triple (Says (publisher.Lawful tag commitSha) (publisher.Searched tag commitSha seen))
      (publisher.listReleases tag pages (seen.length + 1))
      (fun result => Says (publisher.Lawful tag commitSha) (publisher.Found tag commitSha result))
      (Failed (publisher.Lawful tag commitSha)) := by
  induction pages with
  | zero =>
      intro seen _ _
      exact Triple.throw fun _ h => h.mono fun _ _ => trivial
  | succ pages ih =>
      intro seen hfull habsent
      unfold listReleases
      refine Triple.bind ((request_spec fun log hlog => lawful_get hlog.2.1 _).consequence
        (fun _ h => h) (fun _ _ h => h) fun _ _ h => h.mono fun _ _ => trivial) fun json => ?_
      split
      · rename_i releases
        split
        · -- the first release listed under the tag
          rename_i release hfind
          refine Triple.pure fun _ h => h.mono fun log hlog => ⟨fun release' heq => ?_, fun heq => ?_⟩
          · cases heq
            obtain ⟨before, rfl, -, hcalm, hsettled⟩ := hlog
            exact ⟨before, _, _, rfl, hcalm, Or.inr (Or.inl ⟨_, releases, rfl, rfl, hfind⟩),
              hsettled.mono (List.subset_append_left _ _)⟩
          · cases heq
        · rename_i hfind
          have hnone : ∀ release ∈ releases, isFor tag release = false := fun release hmem =>
            (Bool.not_eq_true _).mp (List.find?_eq_none.mp hfind release hmem)
          have hnext : ∀ log, (∃ before, log = before ++
              [(publisher.listPage (seen.length + 1), .value (.arr releases))] ∧
              publisher.Searched tag commitSha seen before) →
              publisher.Searched tag commitSha (seen ++ [releases]) log := by
            rintro log ⟨_, rfl, ⟨before, message, rfl⟩, hcalm, hsettled⟩
            refine ⟨⟨before, message, by rw [listing_concat, List.append_assoc]; rfl⟩,
              hcalm.concat fun release hshows hfor => ?_,
              hsettled.mono (List.subset_append_left _ _)⟩
            obtain ⟨-, heq⟩ | ⟨page, releases', -, heq, hfind'⟩ | ⟨-, heq⟩ := hshows
            · rw [← Answer.value.inj heq] at hfor
              cases hfor
            · rw [← Json.arr.inj (Answer.value.inj heq), hfind] at hfind'
              cases hfind'
            · rw [← Answer.value.inj heq] at hfor
              cases hfor
          have hclean : ∀ page ∈ seen ++ [releases], ∀ release ∈ page, isFor tag release = false := by
            intro page hpage
            obtain hpage | hpage := List.mem_append.mp hpage
            · exact habsent page hpage
            · rw [List.mem_singleton.mp hpage]
              exact hnone
          split
          · rename_i hshort
            refine Triple.pure fun _ h => h.mono fun log hlog =>
              ⟨fun release heq => (by cases heq), fun _ => ?_⟩
            obtain ⟨⟨before, message, hlog⟩, hready⟩ := hnext log hlog
            exact ⟨hready, before, message, _, hlog,
              ⟨by rwa [List.dropLast_concat], ⟨releases, by simp, hshort⟩, hclean⟩⟩
          · rename_i hlong
            have hfull' : ∀ page ∈ seen ++ [releases], releaseListPageSize ≤ page.length := by
              intro page hpage
              obtain hpage | hpage := List.mem_append.mp hpage
              · exact hfull page hpage
              · rw [List.mem_singleton.mp hpage]
                exact Nat.le_of_not_lt hlong
            have hrest := ih (seen ++ [releases]) hfull' hclean
            rw [List.length_append, List.length_singleton] at hrest
            exact hrest.consequence (fun _ h => h.mono hnext) (fun _ _ h => h) fun _ _ h => h
      · exact Triple.throw fun _ h => h.mono fun _ _ => trivial

theorem getRelease_spec :
    Triple (Says (publisher.Lawful tag commitSha) (publisher.Ready tag commitSha))
      (publisher.getRelease tag)
      (fun result => Says (publisher.Lawful tag commitSha) (publisher.Found tag commitSha result))
      (Failed (publisher.Lawful tag commitSha)) := by
  have hlookup : Triple (Says (publisher.Lawful tag commitSha) (publisher.Ready tag commitSha))
      (publisher.publishedRelease tag)
      (fun release => Says (publisher.Lawful tag commitSha)
        (publisher.Handed tag commitSha release))
      (fun e => Says (publisher.Lawful tag commitSha) fun log =>
        ∀ message, e = .apiError (some 404) message → publisher.Searched tag commitSha [] log) := by
    unfold publishedRelease
    refine Triple.bind (M := fun release => Says (publisher.Lawful tag commitSha)
      (publisher.Handed tag commitSha release))
      ((request_spec fun log hlog => lawful_get hlog.1 _).consequence (fun _ h => h)
        (fun release _ h => h.mono fun log hlog => ?_) fun e _ h => h.mono fun log hlog => ?_)
      fun release => raiseUnless_bind (fun _ h => h.mono fun _ _ _ heq => (by cases heq)) fun _ =>
        Triple.pure fun _ h => h
    · obtain ⟨before, rfl, hcalm, hsettled⟩ := hlog
      exact ⟨before, _, _, rfl, hcalm, Or.inl ⟨rfl, rfl⟩,
        hsettled.mono (List.subset_append_left _ _)⟩
    · obtain ⟨before, answer, rfl, ⟨hcalm, hsettled⟩, hfailed, hstatus⟩ := hlog
      intro message heq
      refine ⟨⟨before, message, ?_⟩, hcalm.concat_failed hfailed,
        hsettled.mono (List.subset_append_left _ _)⟩
      rw [hstatus _ _ heq]
      rfl
  unfold getRelease
  refine Triple.bind (Triple.attempt hlookup) fun result => ?_
  split
  · refine Triple.pure fun _ h => (h.1 _ rfl).mono fun log hlog => ⟨fun release heq => ?_, fun heq => ?_⟩
    · cases heq
      exact hlog
    · cases heq
  · have hlist : Triple (Says (publisher.Lawful tag commitSha) (publisher.Searched tag commitSha []))
        (publisher.listReleases tag releaseListPageLimit 1)
        (fun result => Says (publisher.Lawful tag commitSha) (publisher.Found tag commitSha result))
        (Failed (publisher.Lawful tag commitSha)) :=
      listReleases_spec releaseListPageLimit [] (fun _ hmem => absurd hmem List.not_mem_nil)
        fun _ hmem => absurd hmem List.not_mem_nil
    exact hlist.consequence (fun _ h => (h.2 _ rfl).mono fun log hlog => hlog _ rfl)
      (fun _ _ h => h) fun _ _ h => h
  · exact Triple.throw fun _ h => (h.2 _ rfl).mono fun _ _ => trivial

/-- A draft may be created when the release is known to be absent. -/
theorem lawful_creation {log : Log} (hready : publisher.Ready tag commitSha log)
    (habsent : publisher.ReleaseAbsent tag log) :
    publisher.Lawful tag commitSha log (publisher.creation tag commitSha) where
  kind := Or.inr (Or.inl ⟨rfl, Or.inr (Or.inr rfl)⟩)
  keepsTags _ hpost := absurd rfl hpost
  reference _ heq := absurd (endpoint_inj heq).symm (git_ne_releases "refs" "")
  settled _ := hready.2
  absent _ _ := ⟨rfl, habsent⟩
  owned hpatch := by cases hpatch
  published := hready.1

theorem ensureRelease_spec :
    Triple (Says (publisher.Lawful tag commitSha) (publisher.Ready tag commitSha))
      (publisher.ensureRelease tag commitSha (releaseMarker tag commitSha))
      (fun _ => Says (publisher.Lawful tag commitSha) fun _ => True)
      (Failed (publisher.Lawful tag commitSha)) := by
  unfold ensureRelease
  refine Triple.bind getRelease_spec fun result => ?_
  cases result with
  | some release =>
      exact (handleExisting_spec release).consequence
        (fun _ h => h.mono fun log hlog => hlog.1 release rfl) (fun _ _ h => h) fun _ _ h => h
  | none =>
      have hcreate : Triple (Says (publisher.Lawful tag commitSha) fun log =>
            publisher.Ready tag commitSha log ∧ publisher.ReleaseAbsent tag log)
          (publisher.request .post "releases"
            (some (draftRelease tag commitSha (releaseMarker tag commitSha))))
          (fun created => Says (publisher.Lawful tag commitSha)
            (publisher.Handed tag commitSha created))
          (fun _ => Says (publisher.Lawful tag commitSha) (publisher.Ready tag commitSha)) := by
        refine (request_spec fun log hlog => lawful_creation hlog.1 hlog.2).consequence
          (fun _ h => h) (fun created _ h => h.mono fun log hlog => ?_)
          fun e _ h => h.mono fun log hlog => ?_
        · obtain ⟨before, rfl, ⟨hcalm, hsettled⟩, -⟩ := hlog
          exact ⟨before, _, _, rfl, hcalm, Or.inr (Or.inr ⟨rfl, rfl⟩),
            hsettled.mono (List.subset_append_left _ _)⟩
        · obtain ⟨before, answer, rfl, ⟨⟨hcalm, hsettled⟩, -⟩, hfailed, -⟩ := hlog
          exact ⟨hcalm.concat_failed hfailed, hsettled.mono (List.subset_append_left _ _)⟩
      refine Triple.bind ((Triple.attempt hcreate).consequence
        (fun _ h => h.mono fun log hlog => hlog.2 rfl) (fun _ _ h => h) fun _ _ h => h) fun result => ?_
      split
      · exact (handleExisting_spec _).consequence (fun _ h => h.1 _ rfl) (fun _ _ h => h) fun _ _ h => h
      · split
        · refine Triple.bind (getRelease_spec.consequence (fun _ h => h.2 _ rfl) (fun _ _ h => h)
            fun _ _ h => h) fun raced => ?_
          cases raced with
          | none => exact Triple.throw fun _ h => h.mono fun _ _ => trivial
          | some raced =>
              exact (handleExisting_spec raced).consequence
                (fun _ h => h.mono fun log hlog => hlog.1 raced rfl) (fun _ _ h => h) fun _ _ h => h
        · exact Triple.throw fun _ h => (h.2 _ rfl).mono fun _ _ => trivial
      · exact Triple.throw fun _ h => (h.2 _ rfl).mono fun _ _ => trivial

theorem publish_spec (version commitSha : String) :
    Triple (Says (publisher.Lawful ("v" ++ version) commitSha.toLower) fun log => log = [])
      (publisher.publish version commitSha)
      (fun _ => Says (publisher.Lawful ("v" ++ version) commitSha.toLower) fun _ => True)
      (Failed (publisher.Lawful ("v" ++ version) commitSha.toLower)) := by
  unfold publish
  refine Triple.bind (Triple.liftResult (Q := fun tag dialogue => tag = "v" ++ version ∧
    Says (publisher.Lawful ("v" ++ version) commitSha.toLower) (fun log => log = []) dialogue)
    (fun tag htag _ h => ⟨?_, h⟩) fun _ _ _ h => h.mono fun _ _ => trivial) fun tag =>
    Triple.assume fun htag => ?_
  · unfold releaseTag at htag
    split at htag
    · exact (Except.ok.inj htag).symm
    · cases htag
  subst htag
  refine Triple.bind (Triple.liftResult (Q := fun sha dialogue => sha = commitSha.toLower ∧
    Says (publisher.Lawful ("v" ++ version) commitSha.toLower) (fun log => log = []) dialogue)
    (fun sha hsha _ h => ⟨?_, h⟩) fun _ _ _ h => h.mono fun _ _ => trivial) fun sha =>
    Triple.assume fun hsha => ?_
  · unfold validSha at hsha
    split at hsha
    · exact (Except.ok.inj hsha).symm
    · cases hsha
  subst hsha
  refine Triple.bind (ensureTag_spec.consequence (fun _ h => h.mono fun log hlog => ?_)
    (fun _ _ h => h) fun _ _ h => h) fun tagAction => ?_
  · rw [hlog]
    exact NothingPublished.nil
  · exact Triple.bind (ensureRelease_spec.consequence (fun _ h => h) (fun _ _ h => h)
      fun _ _ h => h) fun _ => Triple.pure fun _ h => h

end Release

/-- Whatever the API answers, every request of a run of `publish` is lawful. -/
theorem publish_lawful [PythonInt] (publisher : ReleasePublisher) (version commitSha : String)
    (reply : Log → Request → Answer) :
    Grounded (publisher.Lawful ("v" ++ version) commitSha.toLower)
      (logOf (publisher.publish version commitSha) reply) :=
  grounded_logOf ((publish_spec version commitSha).consequence (fun _ h => h) (fun _ _ h => h)
    fun _ _ h => h) reply

end ReleasePublisher

end Qalsh.Release
