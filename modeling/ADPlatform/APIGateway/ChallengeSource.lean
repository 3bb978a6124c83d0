import ADPlatform.Lib.Encoding
import ADPlatform.Lib.FilePath

/-! # Challenge sources

The source bundle of a challenge is served from below a configured root. What the path in the store
says is first cleaned, then resolved over all symbolic links and compared with the resolved root
(`resolveChallengeSourcePath_inside`). -/

namespace ADPlatform.APIGateway
open FilePath
open Text (exists_of_bind_eq_ok)

/-- Why a challenge's source bundle is not served. -/
inductive SourceError where
  /-- errChallengeSourceUnavailable -/
  | unavailable
  | path (error : PathError)
  /-- filepath.Rel found no relative path -/
  | notRelative
  deriving DecidableEq, Repr

/-- `sanitizeSourceBundlePath`. -/
def sanitizeSourceBundlePath (value : String) : String := Text.trimSpace value

/-- A path function's error, as one of the bundle's. -/
def liftPath {α : Type} : Except PathError α → Except SourceError α :=
  Except.mapError .path

/-- The path goes up: it is `..` or starts with `../`. -/
def Climbs (path : FilePath.Text) : Prop := path = up ∨ up ++ ['/'] <+: path

instance (path : FilePath.Text) : Decidable (Climbs path) := inferInstanceAs (Decidable (_ ∨ _))

/-- What `AD_CHALLENGE_SOURCE_ROOT` says. -/
def challengeSourceRoot (env : String) : FilePath.Text :=
  let root := (Text.trimSpace env).toList
  if root = [] then ['.'] else root

/-- `resolveChallengeSourcePath`: the archive and its entry, or the reason for a refusal. -/
def resolveChallengeSourcePath (fs : FileSystem) (env sourceBundlePath : String) :
    Except SourceError (FilePath.Text × Entry) := do
  let trimmed := (sanitizeSourceBundlePath sourceBundlePath).toList
  if trimmed = [] ∨ isAbs trimmed then .error .unavailable
  else
    let cleanRelative := clean trimmed
    if cleanRelative = ['.'] ∨ Climbs cleanRelative then .error .unavailable
    else
      let absRoot ← liftPath (fs.abs (challengeSourceRoot env))
      let resolvedRoot ← liftPath (fs.evalSymlinks absRoot)
      let absCandidate ← liftPath (fs.abs (join [absRoot, cleanRelative]))
      let resolvedCandidate ← liftPath (fs.evalSymlinks absCandidate)
      match rel resolvedRoot resolvedCandidate with
      | none => .error .notRelative
      | some relToRoot =>
        if Climbs relToRoot then .error .unavailable
        else do
          let info ← liftPath (fs.stat resolvedCandidate)
          .ok (resolvedCandidate, info)

variable {fs : FileSystem} {env sourceBundlePath : String} {path : FilePath.Text} {info : Entry}

theorem liftPath_eq_ok {α : Type} {result : Except PathError α} {a : α} :
    liftPath result = .ok a ↔ result = .ok a := by
  cases result <;> simp [liftPath, Except.mapError]

/-- The path that is served is that of a location without a link in it, at or below the location of
the root, whatever the links are. -/
theorem resolveChallengeSourcePath_inside
    (h : resolveChallengeSourcePath fs env sourceBundlePath = .ok (path, info)) :
    ∃ absRoot absCandidate root location,
      fs.abs (challengeSourceRoot env) = .ok absRoot ∧ fs.evalSymlinks absRoot = .ok (text root) ∧
      fs.abs (join [absRoot, clean (sanitizeSourceBundlePath sourceBundlePath).toList]) =
        .ok absCandidate ∧
      fs.evalSymlinks absCandidate = .ok path ∧ path = text location ∧
      fs.Physical root ∧ fs.Physical location ∧ root <+: location ∧ fs.stat path = .ok info := by
  rw [resolveChallengeSourcePath] at h
  dsimp only at h
  split at h
  · cases h
  split at h
  · cases h
  obtain ⟨absRoot, hroot, h⟩ := exists_of_bind_eq_ok h
  obtain ⟨resolvedRoot, hresolvedRoot, h⟩ := exists_of_bind_eq_ok h
  obtain ⟨absCandidate, hcandidate, h⟩ := exists_of_bind_eq_ok h
  obtain ⟨resolvedCandidate, hresolved, h⟩ := exists_of_bind_eq_ok h
  rw [liftPath_eq_ok] at hroot hresolvedRoot hcandidate hresolved
  split at h
  · cases h
  rename_i relToRoot hrel
  split at h
  · cases h
  rename_i hclimbs
  obtain ⟨hup, hclimb⟩ := not_or.mp hclimbs
  obtain ⟨info', hinfo, h⟩ := exists_of_bind_eq_ok h
  cases h
  obtain ⟨root, rfl, hphysicalRoot⟩ := FileSystem.physical_evalSymlinks hresolvedRoot
  obtain ⟨location, rfl, hphysical⟩ := FileSystem.physical_evalSymlinks hresolved
  exact ⟨absRoot, absCandidate, root, location, hroot, hresolvedRoot, hcandidate, hresolved, rfl,
    hphysicalRoot, hphysical, prefix_of_rel hphysicalRoot.1 hphysical.1 hrel hup hclimb,
    liftPath_eq_ok.mp hinfo⟩

/-- The root is reached over a link, and so is the bundle below it. -/
def linkedBundles : FileSystem where
  entry location :=
    match location.map String.ofList with
    | ["data"] => some (.link "/srv/sources".toList)
    | ["srv"] | ["srv", "sources"] | ["srv", "sources", "bundles"] => some .dir
    | ["srv", "sources", "web"] => some (.link "bundles/../bundles/web.tar".toList)
    | ["srv", "sources", "bundles", "web.tar"] => some .file
    | ["srv", "sources", "bundles", "out"] => some (.link "../..".toList)
    | _ => none
  getwd := none
  getwd_abs := by simp

theorem resolveChallengeSourcePath_linkedBundles :
    resolveChallengeSourcePath linkedBundles "/data" " .//web " =
      .ok ("/srv/sources/bundles/web.tar".toList, .file) ∧
    ∃ absRoot absCandidate root location,
      linkedBundles.abs (challengeSourceRoot "/data") = .ok absRoot ∧
      linkedBundles.evalSymlinks absRoot = .ok (text root) ∧
      linkedBundles.abs (join [absRoot, clean (sanitizeSourceBundlePath " .//web ").toList]) =
        .ok absCandidate ∧
      linkedBundles.evalSymlinks absCandidate = .ok "/srv/sources/bundles/web.tar".toList ∧
      "/srv/sources/bundles/web.tar".toList = text location ∧ linkedBundles.Physical root ∧
      linkedBundles.Physical location ∧ root <+: location ∧
      linkedBundles.stat "/srv/sources/bundles/web.tar".toList = .ok .file :=
  have h : resolveChallengeSourcePath linkedBundles "/data" " .//web " =
      .ok ("/srv/sources/bundles/web.tar".toList, .file) := by decide +kernel
  ⟨h, resolveChallengeSourcePath_inside h⟩

example : resolveChallengeSourcePath linkedBundles "/srv/sources/bundles" "out/sources" =
    .error .unavailable := by
  decide +kernel

end ADPlatform.APIGateway
