import Typeahead.Source.Program

/-!
Scans of the search path over time. Between the fetches of a cache time passes, the search path changes,
and so do its directories; what a fetch gives is a scan of the search path as it is now, and no older than
the lifetime of the cache allows.
-/
namespace Typeahead

/-! ## Runs -/

/-- What a fetch looks at. -/
structure Scene where
  disk : Disk
  searchPath : Text
  now : Instant

/-- What happens to a cache or around it. -/
inductive CacheEvent where
  | fetch
  | wait (nanoseconds : Nat)
  | redirect (searchPath : Text)
  | rearrange (disk : Disk)

/-- The scene after an event. -/
def Scene.after (scene : Scene) : CacheEvent → Scene
  | .fetch => scene
  | .wait nanoseconds => { scene with now := scene.now + nanoseconds }
  | .redirect searchPath => { scene with searchPath }
  | .rearrange disk => { scene with disk }

/-- A fetch: the scene, whether it was scanned, and what was fetched. -/
structure Fetch where
  scene : Scene
  scanned : Bool
  programs : List Text

namespace ProgramCache

/-- The fetch in a scene, and the cache after it. -/
def fetchIn (cache : ProgramCache) (scene : Scene) : Fetch × ProgramCache :=
  let (programs, next) := cache.fetch scene.disk scene.searchPath scene.now
  (⟨scene, (cache.get? scene.searchPath scene.now).isNone, programs⟩, next)

/-- The fetches among some events. -/
def fetches (cache : ProgramCache) (scene : Scene) : List CacheEvent → List Fetch
  | [] => []
  | .fetch :: events =>
    (cache.fetchIn scene).1 :: (cache.fetchIn scene).2.fetches scene events
  | event :: events => cache.fetches (scene.after event) events

end ProgramCache

/-! ## What a fetch may give -/

/-- The last of the fetches for which the search path was scanned. -/
def latestScan (fetches : List Fetch) : Option Fetch := (fetches.filter Fetch.scanned).getLast?

namespace Fetch

/-- The scan was made for the search path of the scene, before it, and less than a lifetime ago. -/
structure IsFresh (lifetime : Duration) (scan : Fetch) (scene : Scene) : Prop where
  searchPath : scan.scene.searchPath = scene.searchPath
  before : scan.scene.now ≤ scene.now
  young : scene.now - scan.scene.now < lifetime.nanoseconds

/-- The fetch gives the programs that were on the search path of its scene when they were scanned: now, or
at the latest scan before if that one is fresh. It scans only if that one is not. -/
inductive IsSound (lifetime : Duration) (before : List Fetch) (f : Fetch) : Prop
  | scanned (hscanned : f.scanned = true)
      (hstale : ∀ scan, latestScan before = some scan → ¬ scan.IsFresh lifetime f.scene)
      (hprograms : f.programs = f.scene.disk.programsOn f.scene.searchPath)
  | held (hscanned : f.scanned = false) {scan : Fetch} (hlatest : latestScan before = some scan)
      (hfresh : scan.IsFresh lifetime f.scene)
      (hprograms : f.programs = scan.scene.disk.programsOn f.scene.searchPath)

end Fetch

theorem latestScan_concat (fetches : List Fetch) (f : Fetch) :
    latestScan (fetches ++ [f]) = if f.scanned then some f else latestScan fetches := by
  unfold latestScan
  rw [List.filter_append]
  cases h : f.scanned <;> simp [h]

namespace ProgramCache

variable {cache : ProgramCache} {scene : Scene} {past before behind : List Fetch} {f : Fetch}
  {events : List CacheEvent}

/-! ## Steps -/

theorem get?_eq_some {searchPath : Text} {now : Instant} {programs : List Text} :
    cache.get? searchPath now = some programs ↔
      ∃ s, cache.scan = some s ∧ s.searchPath = searchPath ∧
        now - s.time < cache.lifetime.nanoseconds ∧ s.programs = programs := by
  unfold get? holds
  cases cache.scan with
  | none => simp
  | some s => simp [and_assoc]

/-- The cache holds what the latest scan gave, which was made earlier. -/
structure Remembers (cache : ProgramCache) (past : List Fetch) (scene : Scene) : Prop where
  scan : cache.scan = (latestScan past).map fun scan =>
    ⟨scan.scene.disk.programsOn scan.scene.searchPath, scan.scene.searchPath, scan.scene.now⟩
  earlier : ∀ scan, latestScan past = some scan → scan.scene.now ≤ scene.now

/-- Whatever happens around a cache, it remembers. -/
theorem Remembers.after (h : cache.Remembers past scene) (event : CacheEvent) :
    cache.Remembers past (scene.after event) := by
  refine ⟨h.scan, fun scan hscan => ?_⟩
  have hearlier := h.earlier scan hscan
  cases event with
  | wait nanoseconds => exact Int.le_trans hearlier (Int.le_add_of_nonneg_right (Int.natCast_nonneg _))
  | _ => exact hearlier

/-- What is known without a scan is what the latest one gave, if it is fresh. -/
theorem Remembers.get?_eq_some_iff {programs : List Text} (h : cache.Remembers past scene) :
    cache.get? scene.searchPath scene.now = some programs ↔
      ∃ scan, latestScan past = some scan ∧ scan.IsFresh cache.lifetime scene ∧
        scan.scene.disk.programsOn scene.searchPath = programs := by
  rw [get?_eq_some, h.scan]
  constructor
  · rintro ⟨s, hs, hpath, hyoung, rfl⟩
    obtain ⟨scan, hlatest, rfl⟩ := Option.map_eq_some_iff.1 hs
    dsimp only at hpath hyoung ⊢
    exact ⟨scan, hlatest, ⟨hpath, h.earlier scan hlatest, hyoung⟩, by rw [hpath]⟩
  · rintro ⟨scan, hlatest, hfresh, rfl⟩
    rw [hlatest]
    exact ⟨_, rfl, hfresh.searchPath, hfresh.young,
      congrArg scan.scene.disk.programsOn hfresh.searchPath⟩

theorem fetchIn_of_none (h : cache.get? scene.searchPath scene.now = none) :
    cache.fetchIn scene =
      (⟨scene, true, scene.disk.programsOn scene.searchPath⟩,
        { cache with
          scan := some ⟨scene.disk.programsOn scene.searchPath, scene.searchPath, scene.now⟩ }) := by
  unfold fetchIn
  rw [cache.fetch_of_none h, h]
  rfl

theorem fetchIn_of_get? {programs : List Text}
    (h : cache.get? scene.searchPath scene.now = some programs) :
    cache.fetchIn scene = (⟨scene, false, programs⟩, cache) := by
  unfold fetchIn
  rw [cache.fetch_of_get? h, h]
  rfl

/-- A fetch from a cache that remembers is sound. -/
theorem Remembers.isSound (h : cache.Remembers past scene) :
    (cache.fetchIn scene).1.IsSound cache.lifetime past := by
  cases hget : cache.get? scene.searchPath scene.now with
  | none =>
    rw [fetchIn_of_none hget]
    refine .scanned rfl (fun scan hlatest hfresh => ?_) rfl
    have hknown := h.get?_eq_some_iff.2 ⟨scan, hlatest, hfresh, rfl⟩
    rw [hget] at hknown
    cases hknown
  | some programs =>
    rw [fetchIn_of_get? hget]
    obtain ⟨scan, hlatest, hfresh, hprograms⟩ := h.get?_eq_some_iff.1 hget
    exact .held rfl hlatest hfresh hprograms.symm

/-- After a fetch a cache remembers it. -/
theorem Remembers.fetchIn (h : cache.Remembers past scene) :
    (cache.fetchIn scene).2.Remembers (past ++ [(cache.fetchIn scene).1]) scene := by
  cases hget : cache.get? scene.searchPath scene.now with
  | none =>
    rw [fetchIn_of_none hget]
    refine ⟨by rw [latestScan_concat]; rfl, fun scan hscan => ?_⟩
    rw [latestScan_concat] at hscan
    cases hscan
    exact Int.le_refl _
  | some programs =>
    rw [fetchIn_of_get? hget]
    refine ⟨by rw [latestScan_concat]; exact h.scan, fun scan hscan => ?_⟩
    rw [latestScan_concat] at hscan
    exact h.earlier scan hscan

theorem lifetime_fetchIn (cache : ProgramCache) (scene : Scene) :
    (cache.fetchIn scene).2.lifetime = cache.lifetime := by
  cases hget : cache.get? scene.searchPath scene.now with
  | none => rw [fetchIn_of_none hget]
  | some programs => rw [fetchIn_of_get? hget]

/-! ## From the first fetch to the last -/

theorem Remembers.isSound_of_fetches (h : cache.Remembers past scene)
    (hrun : cache.fetches scene events = before ++ f :: behind) :
    f.IsSound cache.lifetime (past ++ before) := by
  induction events generalizing cache scene past before with
  | nil => simp [fetches] at hrun
  | cons event events ih =>
    cases event with
    | fetch =>
      unfold fetches at hrun
      cases before with
      | nil =>
        obtain ⟨rfl, _⟩ := List.cons.inj hrun
        rw [List.append_nil]
        exact h.isSound
      | cons g before =>
        obtain ⟨rfl, hrest⟩ := List.cons.inj hrun
        have hsound := ih h.fetchIn hrest
        rwa [lifetime_fetchIn, List.append_assoc] at hsound
    | wait nanoseconds => exact ih (h.after (.wait nanoseconds)) hrun
    | redirect searchPath => exact ih (h.after (.redirect searchPath)) hrun
    | rearrange disk => exact ih (h.after (.rearrange disk)) hrun

/-- The scenes of the fetches do not depend on the cache. -/
theorem scenes_fetches (cache cache' : ProgramCache) (scene : Scene) (events : List CacheEvent) :
    (cache.fetches scene events).map Fetch.scene = (cache'.fetches scene events).map Fetch.scene := by
  induction events generalizing cache cache' scene with
  | nil => rfl
  | cons event events ih =>
    cases event with
    | fetch => exact congrArg (scene :: ·) (ih _ _ scene)
    | wait nanoseconds => exact ih _ _ _
    | redirect searchPath => exact ih _ _ _
    | rearrange disk => exact ih _ _ _

theorem disk_of_mem_fetches (hdisk : ∀ disk, CacheEvent.rearrange disk ∉ events)
    (hf : f ∈ cache.fetches scene events) : f.scene.disk = scene.disk := by
  induction events generalizing cache scene with
  | nil => cases hf
  | cons event events ih =>
    have hrest : ∀ disk, CacheEvent.rearrange disk ∉ events := fun disk hmem =>
      hdisk disk (List.mem_cons_of_mem _ hmem)
    cases event with
    | fetch =>
      rcases List.mem_cons.1 hf with rfl | hf
      · rfl
      · exact ih hrest hf
    | wait nanoseconds =>
      have hsame := ih hrest hf
      exact hsame
    | redirect searchPath =>
      have hsame := ih hrest hf
      exact hsame
    | rearrange disk => exact absurd List.mem_cons_self (hdisk disk)

theorem remembers_new (lifetime : Duration) (scene : Scene) :
    ({ lifetime } : ProgramCache).Remembers [] scene :=
  ⟨rfl, nofun⟩

/-- Where the directories do not change, every fetch gives the programs on the search path as it is. -/
theorem programs_of_mem_fetches {lifetime : Duration}
    (hdisk : ∀ disk, CacheEvent.rearrange disk ∉ events)
    (hf : f ∈ ({ lifetime } : ProgramCache).fetches scene events) :
    f.programs = scene.disk.programsOn f.scene.searchPath := by
  obtain ⟨before, behind, hrun⟩ := List.append_of_mem hf
  cases (remembers_new lifetime scene).isSound_of_fetches hrun with
  | scanned _ _ hprograms => rw [hprograms, disk_of_mem_fetches hdisk hf]
  | @held _ scan hlatest _ hprograms =>
    have hscan : scan ∈ before := (List.mem_filter.1 (List.mem_of_getLast? hlatest)).1
    have hmem : scan ∈ ({ lifetime } : ProgramCache).fetches scene events :=
      hrun ▸ List.mem_append_left _ hscan
    rw [hprograms, disk_of_mem_fetches hdisk hmem]

end ProgramCache

/-- Whatever happens around a new cache, each fetch gives the programs of the search path as it is at that
fetch: on the disk as it is then if a scan is made, and otherwise as it was at the latest scan, which was
made for the same search path and less than a lifetime ago. Where the directories do not change, the
fetches give the same as those from a cache that scans every time. -/
theorem no_fetch_is_older_than_the_lifetime (lifetime : Duration) (scene : Scene)
    (events : List CacheEvent) :
    let cache : ProgramCache := { lifetime }
    (∀ before f behind, cache.fetches scene events = before ++ f :: behind →
      f.IsSound lifetime before) ∧
    ((∀ disk, CacheEvent.rearrange disk ∉ events) →
      (∀ f ∈ cache.fetches scene events, f.programs = scene.disk.programsOn f.scene.searchPath) ∧
      (cache.fetches scene events).map Fetch.programs =
        (({ lifetime := 0 } : ProgramCache).fetches scene events).map Fetch.programs) := by
  intro cache
  refine ⟨fun before f behind hrun => ?_, fun hdisk => ⟨fun f => ?_, ?_⟩⟩
  · exact (ProgramCache.remembers_new lifetime scene).isSound_of_fetches hrun
  · exact ProgramCache.programs_of_mem_fetches hdisk
  · have hprograms : ∀ lifetime,
        (({ lifetime } : ProgramCache).fetches scene events).map Fetch.programs =
          ((({ lifetime } : ProgramCache).fetches scene events).map Fetch.scene).map fun scene' =>
            scene.disk.programsOn scene'.searchPath := by
      intro lifetime
      rw [List.map_map]
      exact List.map_congr_left fun f hf => ProgramCache.programs_of_mem_fetches hdisk hf
    rw [hprograms, hprograms, ProgramCache.scenes_fetches]

/-- A disk with a box of one tool. -/
def toolbox (tool : Text) : Disk where
  current := []
  root := .directory (.ofList
    [(.text "box".toList, .directory (.ofList [(.text tool, .file .binary 0o755)]))])

/-- The saw is found and changed for a rake, and the box is looked into again within a minute and after it. -/
def afternoon : List CacheEvent :=
  [.fetch, .rearrange (toolbox "rake".toList), .wait 59999999999, .fetch, .wait 1, .fetch]

/-- For a minute the saw is fetched, and then the rake. Had nothing been changed, it would be the saw again,
as without a cache. -/
theorem the_saw_is_fetched_for_a_minute :
    let cache : ProgramCache := { lifetime := 60 }
    let scene : Scene := ⟨toolbox "saw".toList, "/box".toList, 0⟩
    ∃ first second third, cache.fetches scene afternoon = [first] ++ second :: [third] ∧
      second.IsSound 60 [first] ∧ third.IsSound 60 [first, second] ∧
      [first, second, third].map Fetch.scanned = [true, false, true] ∧
      [first, second, third].map Fetch.programs =
        [["saw".toList], ["saw".toList], ["rake".toList]] ∧
      (cache.fetches scene [.fetch, .wait 1, .fetch]).map Fetch.programs =
        (({ lifetime := 0 } : ProgramCache).fetches scene [.fetch, .wait 1, .fetch]).map
          Fetch.programs := by
  intro cache scene
  obtain ⟨hsound, _⟩ := no_fetch_is_older_than_the_lifetime 60 scene afternoon
  obtain ⟨_, hsame⟩ := no_fetch_is_older_than_the_lifetime 60 scene [.fetch, .wait 1, .fetch]
  refine ⟨_, _, _, rfl, hsound [_] _ [_] rfl, hsound [_, _] _ [] rfl, rfl, by decide +kernel, ?_⟩
  exact (hsame (by simp)).2

end Typeahead
