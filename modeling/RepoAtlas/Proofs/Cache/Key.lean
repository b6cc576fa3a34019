import RepoAtlas.Pipeline.Analysis
import RepoAtlas.Proofs.Cache.Refinement
import RepoAtlas.Proofs.Repository.Location
import RepoAtlas.Proofs.Unicode.Lowercase

/-!
The keys of stored analyses tell repositories and branches apart, however the slashes
and number signs fall in owners and branches.
-/
namespace RepoAtlas

open Text
open Unicode (lowercase)
open AnalysisPlan (cacheLocation)

namespace Coordinates

/-- Whether the name of a repository ends in `.git`, in whatever case. -/
def EndsInGit (r : Coordinates) : Prop :=
  isEndingOf ".git" (lowercase r.name) = true

instance (r : Coordinates) : Decidable r.EndsInGit :=
  inferInstanceAs (Decidable (_ = true))

theorem lowercase_slug (r : Coordinates) :
    lowercase r.slug = lowercase r.owner ++ "/" ++ lowercase r.name :=
  Unicode.lowercase_append_slash r.owner r.name

/-- What holds of the coordinates that a location names, as far as their key depends on it. -/
structure IsNamed (r : Coordinates) : Prop where
  owner_noSlash : '/' ∉ r.owner.toList
  name_ne : r.name.toList ≠ []
  name_char : ∀ c ∈ r.name.toList, RepositoryAddress.isNameChar c = true

theorem isNamed_of_ofLocation {location : String} {branch : Option String} {r : Coordinates}
    (h : ofLocation location branch = .ok r) : r.IsNamed := by
  rw [ofLocation_eq_ok_iff] at h
  obtain ⟨hne, hchar⟩ := isNameChar_of_ofLocation? h
  exact ⟨(noSlash_of_ofLocation? h).1, hne, hchar⟩

namespace IsNamed

variable {r r' : Coordinates}

theorem lowercase_owner (h : r.IsNamed) : '/' ∉ (lowercase r.owner).toList := by
  intro hmem
  exact h.owner_noSlash (Unicode.mem_of_mem_lowercase (by decide) hmem)

theorem not_mem_name (h : r.IsNamed) {sign : Char}
    (hsign : RepositoryAddress.isNameChar sign = false) : sign ∉ r.name.toList := by
  intro hmem
  rw [h.name_char sign hmem] at hsign
  cases hsign

theorem lowercase_name (h : r.IsNamed) {sign : Char}
    (hsign : RepositoryAddress.isNameChar sign = false) (hlow : Unicode.IsSign sign) :
    sign ∉ (lowercase r.name).toList := by
  intro hmem
  exact h.not_mem_name hsign (Unicode.mem_of_mem_lowercase hlow hmem)

theorem lowercase_name_ne (h : r.IsNamed) : (lowercase r.name).toList ≠ [] := by
  rw [lowercase, String.toList_ofList]
  exact Unicode.lowerFrom_ne_nil h.name_ne

end IsNamed

end Coordinates

theorem normalizedLocation_eq {location text : String}
    (htext : trimEnd (· == '/') (lowercase (trim location)) = text)
    (hgit : ¬ ".git".toList.isSuffixOf text.toList = true) :
    normalizedLocation location = text := by
  have hkeep : beforeEnd? ".git".toList text.toList = none := by
    rw [beforeEnd?, endsIn, if_neg hgit]
  delta normalizedLocation
  rw [htext]
  simp only [hkeep]

/-- The text in front of what tells the locations of repositories apart. -/
def siteRoot : String :=
  "https://github.com"

theorem cacheLocation_eq (r : Coordinates) : cacheLocation r = siteRoot ++ "/" ++ r.slug := rfl

theorem toList_cacheLocation (r : Coordinates) :
    (cacheLocation r).toList =
      (siteRoot.toList ++ '/' :: r.owner.toList) ++ '/' :: r.name.toList := by
  rw [cacheLocation_eq, toList_append_slash, Coordinates.slug, toList_append_slash,
    List.append_assoc, List.cons_append]

theorem lowercase_cacheLocation (r : Coordinates) :
    lowercase (cacheLocation r) = siteRoot ++ "/" ++ lowercase r.slug := by
  have hroot : lowercase siteRoot = siteRoot := by decide +kernel
  rw [cacheLocation_eq, Unicode.lowercase_append_slash, hroot]

theorem toList_lowercase_cacheLocation (r : Coordinates) :
    (lowercase (cacheLocation r)).toList =
      (siteRoot.toList ++ '/' :: (lowercase r.owner).toList) ++
        '/' :: (lowercase r.name).toList := by
  rw [lowercase_cacheLocation, Coordinates.lowercase_slug, toList_append_slash,
    toList_append_slash, List.append_assoc, List.cons_append]

section Named

variable {r r' : Coordinates} (h : r.IsNamed) (h' : r'.IsNamed)

include h

theorem trim_cacheLocation : trim (cacheLocation r) = cacheLocation r := by
  have hblank : ∀ c ∈ r.name.toList, Unicode.isBlank c = false := by
    intro c hmem
    have hc := h.name_char c hmem
    simp only [RepositoryAddress.isNameChar, Bool.and_eq_true, Bool.not_eq_true'] at hc
    exact hc.1.1.2
  have hstart : (cacheLocation r).toList.dropWhile Unicode.isBlank = (cacheLocation r).toList := by
    rw [toList_cacheLocation]
    exact List.dropWhile_cons_of_neg (by decide)
  rw [trim, trimWhile, hstart, toList_cacheLocation, dropEndWhile_append_cons h.name_ne hblank,
    ← toList_cacheLocation, String.ofList_toList]

/-- What the key of a location depends on is its slug in lower case. -/
theorem normalizedLocation_cacheLocation (hgit : ¬ r.EndsInGit) :
    normalizedLocation (cacheLocation r) = siteRoot ++ "/" ++ lowercase r.slug := by
  have hslash : ∀ c ∈ (lowercase r.name).toList, (c == '/') = false := by
    intro c hmem
    rw [beq_eq_false_iff_ne]
    rintro rfl
    exact h.lowercase_name (by decide) (by decide) hmem
  rw [← lowercase_cacheLocation]
  apply normalizedLocation_eq
  · rw [trim_cacheLocation h, trimEnd, toList_lowercase_cacheLocation,
      dropEndWhile_append_cons h.lowercase_name_ne hslash, ← toList_lowercase_cacheLocation,
      String.ofList_toList]
  · rw [toList_lowercase_cacheLocation, List.isSuffixOf_iff_suffix,
      suffix_append_cons_iff (by decide)]
    intro hsuffix
    apply hgit
    rw [Coordinates.EndsInGit, isEndingOf, endsIn, List.isSuffixOf_iff_suffix]
    exact hsuffix

include h'

/-- Two texts that stand for a repository and a branch are the same just if both are. -/
theorem fingerprint_eq_iff (hgit : ¬ r.EndsInGit) (hgit' : ¬ r'.EndsInGit) :
    fingerprint (cacheLocation r) r.branch = fingerprint (cacheLocation r') r'.branch ↔
      lowercase r.slug = lowercase r'.slug ∧ r.branch = r'.branch := by
  have hparts (r : Coordinates) (h : r.IsNamed) (hgit : ¬ r.EndsInGit) :
      (fingerprint (cacheLocation r) r.branch).toList =
        siteRoot.toList ++ '/' :: ((lowercase r.owner).toList ++ '/' ::
          ((lowercase r.name).toList ++ '#' :: r.branch.toList)) := by
    rw [fingerprint, normalizedLocation_cacheLocation h hgit, ← lowercase_cacheLocation]
    have hsign : "#".toList = ['#'] := by decide
    rw [String.toList_append, String.toList_append, toList_lowercase_cacheLocation, hsign]
    simp only [List.append_assoc, List.cons_append, List.nil_append]
  have hnumber (r : Coordinates) (h : r.IsNamed) : '#' ∉ (lowercase r.name).toList :=
    h.lowercase_name (by decide) (by decide)
  rw [← String.toList_inj, hparts r h hgit, hparts r' h' hgit', List.append_cancel_left_eq,
    List.cons.injEq, append_cons_inj h.lowercase_owner h'.lowercase_owner,
    append_cons_inj (hnumber r h) (hnumber r' h')]
  have hslug : lowercase r.slug = lowercase r'.slug ↔
      lowercase r.owner = lowercase r'.owner ∧ lowercase r.name = lowercase r'.name := by
    rw [← String.toList_inj, Coordinates.lowercase_slug, Coordinates.lowercase_slug,
      toList_append_slash, toList_append_slash,
      append_cons_inj h.lowercase_owner h'.lowercase_owner, String.toList_inj, String.toList_inj]
  rw [hslug, String.toList_inj, String.toList_inj, String.toList_inj]
  simp only [true_and, and_assoc]

end Named

/--
The keys by which the cache knows two repositories with their branches are the same
just if the branches are, and the slugs in lower case: no owner, name or branch is so
written that its text runs into the next. Digests are to tell the two texts apart, and
no name of a repository ends in `.git`.
-/
theorem cacheKey_eq_iff {location location' : String} {branch branch' : Option String}
    {r r' : Coordinates} (hr : Coordinates.ofLocation location branch = .ok r)
    (hr' : Coordinates.ofLocation location' branch' = .ok r')
    (hgit : ¬ r.EndsInGit) (hgit' : ¬ r'.EndsInGit)
    (hdigests : Apart [fingerprint (cacheLocation r) r.branch,
      fingerprint (cacheLocation r') r'.branch]) :
    cacheKey (cacheLocation r) r.branch = cacheKey (cacheLocation r') r'.branch ↔
      lowercase r.slug = lowercase r'.slug ∧ r.branch = r'.branch := by
  have hr := Coordinates.isNamed_of_ofLocation hr
  have hr' := Coordinates.isNamed_of_ofLocation hr'
  rw [← fingerprint_eq_iff hr hr' hgit hgit']
  constructor
  · intro hkeys
    exact hdigests _ (by simp) _ (by simp) hkeys
  · intro hsame
    exact congrArg Sha256.hexDigest hsame

/-- The `.git` that is left at the end of a name is lost: that is why none may end so. -/
example : fingerprint (cacheLocation ⟨"acme", "widgets.GIT", "main"⟩) "main" =
    fingerprint (cacheLocation ⟨"acme", "widgets", "main"⟩) "main" := by
  decide +kernel

theorem apart_pair {a b : String} (h : Sha256.hexDigest a = Sha256.hexDigest b → a = b) :
    Apart [a, b] := by
  intro x hx y hy heq
  simp only [List.mem_cons, List.not_mem_nil, or_false] at hx hy
  rcases hx with rfl | rfl
  · rcases hy with rfl | rfl
    · rfl
    · exact h heq
  · rcases hy with rfl | rfl
    · exact (h heq.symm).symm
    · rfl

namespace SampleKeys

def capital : Coordinates :=
  ⟨"Acme#1", "Widgets", "dev#2"⟩

def small : Coordinates :=
  ⟨"acme#1", "widgets", "dev#2"⟩

def shortBranch : Coordinates :=
  ⟨"acme#1", "widgets", "dev"⟩

/-- The case of a slug does not count, a branch that only starts like another is another. -/
theorem cacheKey_eq_iff_sample :
    Coordinates.ofLocation "https://github.com/Acme#1/Widgets.git" (some "dev#2") = .ok capital ∧
      Coordinates.ofLocation "git@github.com:acme#1/widgets?tab" (some "dev#2") = .ok small ∧
      Coordinates.ofLocation "github.com/acme#1/widgets#top" (some "dev") = .ok shortBranch ∧
      ¬ capital.EndsInGit ∧ ¬ small.EndsInGit ∧ ¬ shortBranch.EndsInGit ∧
      Apart [fingerprint (cacheLocation capital) capital.branch,
        fingerprint (cacheLocation small) small.branch] ∧
      Apart [fingerprint (cacheLocation small) small.branch,
        fingerprint (cacheLocation shortBranch) shortBranch.branch] ∧
      cacheKey (cacheLocation capital) capital.branch =
        cacheKey (cacheLocation small) small.branch ∧
      cacheKey (cacheLocation small) small.branch ≠
        cacheKey (cacheLocation shortBranch) shortBranch.branch := by
  have hcapital : Coordinates.ofLocation "https://github.com/Acme#1/Widgets.git" (some "dev#2") =
      .ok capital := by
    decide +kernel
  have hsmall : Coordinates.ofLocation "git@github.com:acme#1/widgets?tab" (some "dev#2") =
      .ok small := by
    decide +kernel
  have hshort : Coordinates.ofLocation "github.com/acme#1/widgets#top" (some "dev") =
      .ok shortBranch := by
    decide +kernel
  have hgit : ¬ capital.EndsInGit ∧ ¬ small.EndsInGit ∧ ¬ shortBranch.EndsInGit := by
    decide +kernel
  have htexts : fingerprint (cacheLocation capital) capital.branch =
        "https://github.com/acme#1/widgets#dev#2" ∧
      fingerprint (cacheLocation small) small.branch = "https://github.com/acme#1/widgets#dev#2" ∧
      fingerprint (cacheLocation shortBranch) shortBranch.branch =
        "https://github.com/acme#1/widgets#dev" := by
    decide +kernel
  have hdigests : Sha256.hexDigest "https://github.com/acme#1/widgets#dev#2" ≠
      Sha256.hexDigest "https://github.com/acme#1/widgets#dev" := by
    decide +kernel
  have hsame : Apart [fingerprint (cacheLocation capital) capital.branch,
      fingerprint (cacheLocation small) small.branch] := by
    rw [htexts.1, htexts.2.1]
    exact apart_pair fun _ => rfl
  have hother : Apart [fingerprint (cacheLocation small) small.branch,
      fingerprint (cacheLocation shortBranch) shortBranch.branch] := by
    rw [htexts.2.1, htexts.2.2]
    exact apart_pair fun heq => absurd heq hdigests
  refine ⟨hcapital, hsmall, hshort, hgit.1, hgit.2.1, hgit.2.2, hsame, hother, ?_, ?_⟩
  · rw [cacheKey_eq_iff hcapital hsmall hgit.1 hgit.2.1 hsame]
    decide +kernel
  · rw [ne_eq, cacheKey_eq_iff hsmall hshort hgit.2.1 hgit.2.2 hother]
    decide +kernel

end SampleKeys

end RepoAtlas
