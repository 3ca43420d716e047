/-
# Whose repository it is

`parseGitHubRepoUrl` and `checkRepoOwnership` of the web application.  The URL parser and the
lower-casing of texts are the platform's.
-/
import Astrea.DraftPrizes

open Service (JsString jsText trim)

namespace EventPage

/-! ## The platform -/

/-- What is read of a `URL`. -/
structure Url where
  protocol : JsString
  hostname : JsString
  pathname : JsString
  href : JsString
  deriving DecidableEq

/-- What the page takes from its platform. -/
structure Platform where
  /-- `new URL(text)`, nothing when it throws. -/
  url : JsString → Option Url
  toLowerCase : JsString → JsString

/-! ## Repository URLs -/

/-- An ASCII letter in lower case, as a pattern without regard to case compares it. -/
def asciiLower (c : UInt16) : UInt16 := if 65 ≤ c && c ≤ 90 then c + 32 else c

/-- `[a-zA-Z0-9._-]` -/
def isSlugChar (c : UInt16) : Bool :=
  (97 ≤ c && c ≤ 122) || (65 ≤ c && c ≤ 90) || (48 ≤ c && c ≤ 57) || c == 46 || c == 95 || c == 45

/-- `(?:\.git)?\/?$` -/
def isRepoEnd (ignoreCase : Bool) (rest : JsString) : Bool :=
  let rest := if ignoreCase then rest.map asciiLower else rest
  rest ∈ [[], jsText "/", jsText ".git", jsText ".git/"]

/-- `([a-zA-Z0-9._-]+?)(?:\.git)?\/?$`, which captures as little as it can. -/
def matchRepo (ignoreCase : Bool) : JsString → Option JsString
  | [] => none
  | c :: rest =>
      if isSlugChar c then
        if isRepoEnd ignoreCase rest then some [c] else (matchRepo ignoreCase rest).map (c :: ·)
      else none

structure GitHubRepo where
  owner : JsString
  repo : JsString
  deriving DecidableEq

/-- `([a-zA-Z0-9._-]+)\/` and a repository. -/
def matchSlug (ignoreCase : Bool) (text : JsString) : Option GitHubRepo :=
  let owner := text.takeWhile isSlugChar
  match text.dropWhile isSlugChar with
  | 47 :: rest =>
      if owner = [] then none else (matchRepo ignoreCase rest).map fun repo => ⟨owner, repo⟩
  | _ => none

/-- What follows the literal text, letters compared without regard to case. -/
def afterIgnoringCase (literal : String) (text : JsString) : Option JsString :=
  if (text.take literal.length).map asciiLower = jsText literal then
    some (text.drop literal.length)
  else none

/-- `/^https?:\/\//i` -/
def hasHttpScheme (text : JsString) : Bool :=
  (afterIgnoringCase "https://" text).isSome || (afterIgnoringCase "http://" text).isSome

def Platform.parseGitHubRepoUrl (pf : Platform) (rawUrl : JsString) : Option GitHubRepo :=
  let trimmed := trim rawUrl
  if trimmed = [] then none
  else match (afterIgnoringCase "git@github.com:" trimmed).bind (matchSlug true) with
    | some repo => some repo
    | none => do
        let urlToParse := if hasHttpScheme trimmed then trimmed else jsText "https://" ++ trimmed
        let parsed ← pf.url urlToParse
        let host := pf.toLowerCase parsed.hostname
        if host ≠ jsText "github.com" ∧ host ≠ jsText "www.github.com" then none
        else match parsed.pathname with
          | 47 :: path => matchSlug false path
          | _ => none

/-! ## Ownership -/

structure RepoPermissions where
  admin : Bool
  push : Bool
  deriving DecidableEq

structure RepoOwnershipInput where
  userLogin : JsString
  repoOwner : JsString
  permissions : Option RepoPermissions
  isCollaborator : Bool

structure RepoOwnershipResult where
  isOwner : Bool
  reason : Option JsString
  deriving DecidableEq

/-- Two names are the same but for their case. -/
def Platform.SameName (pf : Platform) (user owner : JsString) : Prop :=
  pf.toLowerCase user = pf.toLowerCase owner

instance (pf : Platform) (user owner : JsString) : Decidable (pf.SameName user owner) :=
  inferInstanceAs (Decidable (_ = _))

def Platform.checkRepoOwnership (pf : Platform) (input : RepoOwnershipInput) :
    RepoOwnershipResult :=
  let user := trim input.userLogin
  let owner := trim input.repoOwner
  if user = [] ∨ owner = [] then
    ⟨false, some (jsText "Username and repository owner must both be non-empty.")⟩
  else if pf.SameName user owner then ⟨true, none⟩
  else if input.permissions.any (fun p => p.admin || p.push) then ⟨true, none⟩
  else if input.isCollaborator then ⟨true, none⟩
  else ⟨false, some (jsText "GitHub user @" ++ user ++ jsText " does not match repository owner @" ++
    owner ++ jsText " and does not have admin/push permissions.")⟩

/-- Without permissions or a word of the organizer, the owner is who has the name. -/
theorem checkRepoOwnership_isOwner {pf : Platform} {userLogin repoOwner : JsString} :
    (pf.checkRepoOwnership ⟨userLogin, repoOwner, none, false⟩).isOwner = true ↔
      trim userLogin ≠ [] ∧ trim repoOwner ≠ [] ∧ pf.SameName (trim userLogin) (trim repoOwner) := by
  unfold Platform.checkRepoOwnership
  by_cases hempty : trim userLogin = [] ∨ trim repoOwner = []
  · simp only [if_pos hempty, Bool.false_eq_true, false_iff]
    rintro ⟨huser, howner, -⟩
    exact hempty.elim huser howner
  · obtain ⟨huser, howner⟩ := not_or.mp hempty
    by_cases hsame : pf.SameName (trim userLogin) (trim repoOwner)
    · simp only [if_neg hempty, if_pos hsame, true_iff]
      exact ⟨huser, howner, hsame⟩
    · simp only [if_neg hempty, if_neg hsame, Option.any_none, Bool.false_eq_true, if_false,
        false_iff]
      exact fun h => hsame h.2.2

/-! ## What a URL names -/

/-- A name of GitHub: some slug characters. -/
def IsSlug (s : JsString) : Prop := s ≠ [] ∧ ∀ c ∈ s, isSlugChar c = true

theorem matchRepo_slug {ignoreCase : Bool} {text repo : JsString}
    (h : matchRepo ignoreCase text = some repo) : IsSlug repo := by
  induction text generalizing repo with
  | nil => exact nomatch h
  | cons c rest ih =>
      simp only [matchRepo] at h
      split at h
      · rename_i hslug
        split at h
        · cases h
          exact ⟨List.cons_ne_nil _ _, fun x hx => List.mem_singleton.mp hx ▸ hslug⟩
        · obtain ⟨tail, htail, rfl⟩ := Option.map_eq_some_iff.mp h
          exact ⟨List.cons_ne_nil _ _, List.forall_mem_cons.mpr ⟨hslug, (ih htail).2⟩⟩
      · exact nomatch h

theorem matchSlug_slug {ignoreCase : Bool} {text : JsString} {repo : GitHubRepo}
    (h : matchSlug ignoreCase text = some repo) : IsSlug repo.owner ∧ IsSlug repo.repo := by
  simp only [matchSlug] at h
  split at h
  · split at h
    · exact nomatch h
    · rename_i howner
      obtain ⟨name, hname, rfl⟩ := Option.map_eq_some_iff.mp h
      exact ⟨⟨howner, fun c hc => List.mem_takeWhile_imp hc⟩, matchRepo_slug hname⟩
  · exact nomatch h

/-- A URL names an owner and a repository. -/
theorem parseGitHubRepoUrl_slug {pf : Platform} {rawUrl : JsString} {repo : GitHubRepo}
    (h : pf.parseGitHubRepoUrl rawUrl = some repo) : IsSlug repo.owner ∧ IsSlug repo.repo := by
  simp only [Platform.parseGitHubRepoUrl] at h
  split at h
  · exact nomatch h
  · split at h
    · rename_i found hssh
      obtain rfl := Option.some_inj.mp h
      obtain ⟨rest, -, hmatch⟩ := Option.bind_eq_some_iff.mp hssh
      exact matchSlug_slug hmatch
    · obtain ⟨parsed, -, h⟩ := Option.bind_eq_some_iff.mp h
      split at h
      · exact nomatch h
      · split at h
        · exact matchSlug_slug h
        · exact nomatch h

/-- No slug character is white space. -/
theorem not_space_of_slugChar {c : UInt16} (h : isSlugChar c = true) :
    ¬ Service.isJsSpace c = true := by
  simp only [isSlugChar, Service.isJsSpace, Bool.or_eq_true, Bool.and_eq_true, decide_eq_true_eq,
    beq_iff_eq, UInt16.le_iff_toNat_le, ← UInt16.toNat_inj, UInt16.reduceToNat] at h ⊢
  omega

/-- So a name has none around it. -/
theorem IsSlug.trim_eq {s : JsString} (h : IsSlug s) : trim s = s := by
  have hkept : ∀ t : JsString, (∀ c ∈ t, isSlugChar c = true) →
      t.dropWhile Service.isJsSpace = t := by
    intro t ht
    cases t with
    | nil => rfl
    | cons c t => exact List.dropWhile_cons_of_neg (not_space_of_slugChar (ht c List.mem_cons_self))
  rw [trim, hkept s h.2, hkept s.reverse fun c hc => h.2 c (List.mem_reverse.mp hc),
    List.reverse_reverse]

end EventPage
