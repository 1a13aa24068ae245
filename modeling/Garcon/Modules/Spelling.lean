import Garcon.Http.Grammar
import Garcon.Modules.HeaderGuard
import Garcon.Modules.JwtAuth
import Garcon.Modules.StaticFiles

/-!
# Spellings of a target

The file service names a file by the segments of a target, so a target may be spelled
with more slashes or with a query and still name the same file.  The guards compare the
target as it was sent.

Every file has a spelling that begins with more slashes than any pattern is long.  Only
patterns of slashes match it, whichever the file, so the guards agree on all spellings of
each file exactly when they treat every file alike.
-/

namespace Garcon
namespace Modules

open Ascii Search Http StaticFiles

/-! ## The segments of a target -/

/-- A segment that the file service keeps. -/
structure Segment (segment : Bytes) : Prop where
  ne_nil : segment ≠ []
  noSlash : 0x2f ∉ segment
  allowed : isForbiddenSegment segment = false

/-- The components of a path with `count` slashes more than needed. -/
def spell (count : Nat) (path : Path) : Bytes :=
  List.replicate count 0x2f ++ path.flatMap (0x2f :: ·)

theorem splitAll_slash (rest : Bytes) :
    splitAll [0x2f] (List.cons_ne_nil _ _) (0x2f :: rest) =
      [] :: splitAll [0x2f] (List.cons_ne_nil _ _) rest :=
  splitAll_of_fresh (fresh_nil _) rest

theorem splitAll_segment_flatMap {segment : Bytes} {path : Path} (h : 0x2f ∉ segment)
    (hpath : ∀ s ∈ path, 0x2f ∉ s) :
    splitAll [0x2f] (List.cons_ne_nil _ _) (segment ++ path.flatMap (0x2f :: ·)) =
      segment :: path := by
  induction path generalizing segment with
  | nil =>
      rw [List.flatMap_nil, List.append_nil]
      exact splitAll_of_not_occurs fun hi => h ((List.singleton_infix_iff _ _).mp hi)
  | cons next path ih =>
      rw [List.flatMap_cons, List.cons_append]
      have hfresh : Fresh [0x2f] segment := fresh_singleton.mpr h
      have hrest : splitAll [0x2f] (List.cons_ne_nil _ _)
          (segment ++ ([0x2f] ++ (next ++ path.flatMap (0x2f :: ·)))) = _ :=
        splitAll_of_fresh hfresh (next ++ path.flatMap (0x2f :: ·))
      rw [ih (hpath next List.mem_cons_self) fun s hs => hpath s (List.mem_cons_of_mem next hs)]
        at hrest
      exact hrest

/-- Splitting in front of the first slash only adds an empty segment. -/
theorem segments_eq {target : Bytes} (h : target.head? = some 0x2f) :
    segments target =
      (splitAll [0x2f] (List.cons_ne_nil _ _) target).filter (· ≠ []) := by
  cases target with
  | nil => cases h
  | cons b rest =>
      rw [List.head?_cons, Option.some.injEq] at h
      subst h
      rw [splitAll_slash, List.filter_cons_of_neg (by simp)]
      rfl

theorem segments_spell {path : Path} (count : Nat) (hne : path ≠ [])
    (hpath : ∀ s ∈ path, Segment s) : segments (spell count path) = path := by
  have hslashes : (splitAll [0x2f] (List.cons_ne_nil _ _) (spell count path)).filter (· ≠ []) =
      path := by
    unfold spell
    induction count with
    | zero =>
        obtain ⟨first, rest, rfl⟩ := List.exists_cons_of_ne_nil hne
        rw [List.replicate_zero, List.nil_append, List.flatMap_cons, List.cons_append,
          splitAll_slash, splitAll_segment_flatMap (hpath first List.mem_cons_self).noSlash
            fun s hs => (hpath s (List.mem_cons_of_mem first hs)).noSlash,
          List.filter_cons_of_neg (by simp)]
        exact List.filter_eq_self.mpr fun s hs => by simpa using (hpath s hs).ne_nil
    | succ count ih =>
        rw [List.replicate_succ, List.cons_append, splitAll_slash,
          List.filter_cons_of_neg (by simp), ih]
  rw [segments_eq, hslashes]
  obtain ⟨first, rest, rfl⟩ := List.exists_cons_of_ne_nil hne
  cases count <;> rfl

theorem withoutQuery_of_not_mem {target : Bytes} (h : 0x3f ∉ target) :
    withoutQuery target = target := by
  have hnone : find [0x3f] target = none :=
    find_eq_none_iff.mpr fun hi => h ((List.singleton_infix_iff _ _).mp hi)
  rw [withoutQuery, hnone]

theorem not_mem_withoutQuery (target : Bytes) : 0x3f ∉ withoutQuery target := by
  unfold withoutQuery
  cases hfind : find [0x3f] target with
  | none =>
      have hnone := find_eq_none_iff.mp hfind
      exact fun hm => hnone ((List.singleton_infix_iff _ _).mpr hm)
  | some q => exact fresh_singleton.mp (fresh_take_of_find hfind).1

theorem mem_of_mem_withoutQuery {target : Bytes} {b : UInt8} (h : b ∈ withoutQuery target) :
    b ∈ target := by
  unfold withoutQuery at h
  split at h
  · exact h
  · exact List.mem_of_mem_take h

/-- What a target that is mapped to a path gives for the path's components. -/
theorem segment_of_mapToRelativePath {target : Bytes} {path : Path}
    (h : mapToRelativePath target = some path) :
    path ≠ [] ∧ ∀ s ∈ path, Segment s ∧
      ∀ b ∈ s, b ≠ 0x3f ∧ (b ∈ target ∨ b ∈ ascii "/index.html") := by
  unfold mapToRelativePath at h
  simp only at h
  split at h
  · cases h
  · split at h
    · cases h
    · next hforbidden =>
        split at h
        · cases h
        · next hne =>
            rw [Option.some.injEq] at h
            subst h
            refine ⟨hne, ?_⟩
            intro s hs
            simp only [Bool.not_eq_true, List.any_eq_false] at hforbidden
            have hallowed := hforbidden s hs
            simp only [segments, List.mem_filter, decide_eq_true_eq] at hs
            have hnoSlash : (0x2f : UInt8) ∉ s := fun hm =>
              not_infix_of_mem_splitAll hs.1 ((List.singleton_infix_iff _ _).mpr hm)
            refine ⟨⟨hs.2, hnoSlash, by simpa using hallowed⟩, ?_⟩
            intro b hb
            have hdrop := List.mem_of_mem_drop (mem_of_mem_splitAll hs.1 hb)
            unfold orIndex at hdrop
            split at hdrop
            · refine ⟨?_, Or.inr hdrop⟩
              rintro rfl
              revert hdrop
              decide
            · refine ⟨?_, Or.inl (mem_of_mem_withoutQuery hdrop)⟩
              intro e
              exact not_mem_withoutQuery target (e ▸ hdrop)

theorem mem_spell {count : Nat} {path : Path} {b : UInt8} (h : b ∈ spell count path) :
    b = 0x2f ∨ ∃ s ∈ path, b ∈ s := by
  simp only [spell, List.mem_append, List.mem_replicate, List.mem_flatMap, List.mem_cons] at h
  rcases h with ⟨-, h⟩ | ⟨s, hs, h | h⟩
  · exact Or.inl h
  · exact Or.inl h
  · exact Or.inr ⟨s, hs, h⟩

/-- A path that a target can name is named by each of its spellings. -/
theorem mapToRelativePath_spell {path : Path} (hne : path ≠ [])
    (hsegments : ∀ s ∈ path, Segment s ∧ 0x3f ∉ s) (count : Nat) :
    mapToRelativePath (spell count path) = some path := by
  have hpath := segments_spell count hne fun s hs => (hsegments s hs).1
  have hhead : (spell count path).head? = some 0x2f := by
    obtain ⟨first, rest, rfl⟩ := List.exists_cons_of_ne_nil hne
    cases count <;> rfl
  have hquery : (0x3f : UInt8) ∉ spell count path := by
    intro hm
    rcases mem_spell hm with h | ⟨s, hs, hb⟩
    · revert h
      decide
    · exact (hsegments s hs).2 hb
  have hindex : orIndex (spell count path) = spell count path := by
    refine if_neg ?_
    intro hslash
    rw [hslash] at hpath
    revert hpath
    rw [show segments (ascii "/") = [] by decide +kernel]
    exact fun hnil => hne hnil.symm
  have hallowed : path.any isForbiddenSegment = false := by
    rw [List.any_eq_false]
    intro s hs
    rw [(hsegments s hs).1.allowed]
    decide
  unfold mapToRelativePath
  rw [withoutQuery_of_not_mem hquery]
  simp only [hhead, ne_eq, not_true_eq_false, if_false, hindex, hpath, hne]
  rw [hallowed]
  rfl

/-- Every file a valid target names has a valid spelling with any number of slashes. -/
theorem spell_of_mapToRelativePath {target : Bytes} {path : Path}
    (hvalid : isValidTarget target = true) (h : mapToRelativePath target = some path)
    (count : Nat) :
    isValidTarget (spell count path) = true ∧
      mapToRelativePath (spell count path) = some path := by
  obtain ⟨hne, hsegments⟩ := segment_of_mapToRelativePath h
  have htext := isValidTarget_iff.mp hvalid
  have hhead : (spell count path).head? = some 0x2f := by
    obtain ⟨first, rest, rfl⟩ := List.exists_cons_of_ne_nil hne
    cases count <;> rfl
  refine ⟨isValidTarget_iff.mpr ⟨hhead, ?_⟩, mapToRelativePath_spell hne (fun s hs => ?_) count⟩
  · intro b hb
    rcases mem_spell hb with rfl | ⟨s, hs, hb⟩
    · decide
    · rcases ((hsegments s hs).2 b hb).2 with hmem | hmem
      · exact htext.2 b hmem
      · have hindexText : TargetText (ascii "/index.html") := by
          rw [← isValidTarget_iff]
          decide
        exact hindexText.2 b hmem
  · exact ⟨(hsegments s hs).1, fun hm => ((hsegments s hs).2 _ hm).1 rfl⟩

/-! ## Patterns and spellings -/

/-- A pattern that is no longer than the slashes a spelling begins with cannot see which
file is spelled. -/
theorem targetMatches_spell {pattern : Bytes} {count : Nat} (h : pattern.length ≤ count)
    (kind : PatternKind) {path path' : Path} (hne : path ≠ []) (hne' : path' ≠ []) :
    targetMatches kind pattern (spell count path) =
      targetMatches kind pattern (spell count path') := by
  have hlong : ∀ p : Path, p ≠ [] → pattern.length < (spell count p).length := by
    intro p hp
    obtain ⟨first, rest, rfl⟩ := List.exists_cons_of_ne_nil hp
    simp only [spell, List.length_append, List.length_replicate, List.flatMap_cons,
      List.cons_append, List.length_cons]
    omega
  cases kind with
  | exact =>
      have hfalse : ∀ p : Path, p ≠ [] → targetMatches .exact pattern (spell count p) = false := by
        intro p hp
        rw [Bool.eq_false_iff]
        intro hmatch
        have hlen := hlong p hp
        rw [← targetMatches_exact.mp hmatch] at hlen
        exact Nat.lt_irrefl _ hlen
      rw [hfalse path hne, hfalse path' hne']
  | prefixed =>
      have htake : ∀ p : Path, (spell count p).take pattern.length =
          List.replicate pattern.length 0x2f := by
        intro p
        rw [spell, List.take_append_of_le_length (by simpa using h), List.take_replicate,
          Nat.min_eq_left h]
      show ((spell count path).take pattern.length == pattern) =
        ((spell count path').take pattern.length == pattern)
      rw [htake, htake]

/-! ## The guards -/

def requestFor (method : Bytes) (headers : List HeaderField) (target : Bytes) : Request where
  method := method
  target := target
  headers := headers

/-- A target the parser accepts and the file service has a path for. -/
def Servable (target : Bytes) : Prop :=
  isValidTarget target = true ∧ (mapToRelativePath target).isSome = true

namespace HeaderGuard

/-- The first rule that refuses the request does so with this response. -/
def RefusedWith (rules : List GuardRule) (request : Request) (response : Response) : Prop :=
  ∃ rule, guard.FirstRefusal rules request rule ∧ guard.failureResponse rule = response

theorem handle_eq_respond_iff {rules : List GuardRule} {request : Request}
    {response : Response} :
    handle rules request = .respond response ↔ RefusedWith rules request response :=
  Guard.handle_eq_respond_iff

theorem handle_eq_pass_or (rules : List GuardRule) (request : Request) :
    handle rules request = .pass ∨ ∃ response, handle rules request = .respond response := by
  rcases guard.handle_spec rules request with ⟨hpass, -⟩ | ⟨rule, -, hrespond⟩
  · exact Or.inl hpass
  · exact Or.inr ⟨_, hrespond⟩

/-- With this method and these headers every file is refused alike, or none is. -/
def Uniform (rules : List GuardRule) (method : Bytes) (headers : List HeaderField) : Prop :=
  ∀ t u, Servable t → Servable u → ∀ response,
    RefusedWith rules (requestFor method headers t) response →
      RefusedWith rules (requestFor method headers u) response

theorem handle_eq_of_uniform {rules : List GuardRule} {method : Bytes}
    {headers : List HeaderField} (h : Uniform rules method headers) {t u : Bytes}
    (ht : Servable t) (hu : Servable u) :
    handle rules (requestFor method headers t) = handle rules (requestFor method headers u) := by
  rcases handle_eq_pass_or rules (requestFor method headers t) with hpass | ⟨response, hrespond⟩
  · rcases handle_eq_pass_or rules (requestFor method headers u) with hpass' | ⟨response, hrespond⟩
    · rw [hpass, hpass']
    · have hback := handle_eq_respond_iff.mpr
        (h u t hu ht response (handle_eq_respond_iff.mp hrespond))
      rw [hback, hrespond]
  · have hthere := handle_eq_respond_iff.mpr
      (h t u ht hu response (handle_eq_respond_iff.mp hrespond))
    rw [hrespond, hthere]

theorem refuses_spell {rule : GuardRule} {method : Bytes} {headers : List HeaderField}
    {count : Nat} (hcount : rule.targetPattern.length ≤ count) {path path' : Path}
    (hne : path ≠ []) (hne' : path' ≠ []) :
    guard.Refuses rule (requestFor method headers (spell count path)) ↔
      guard.Refuses rule (requestFor method headers (spell count path')) := by
  unfold Guard.Refuses
  show _ ∧ targetMatches rule.targetKind rule.targetPattern (spell count path) = true ∧ _ ↔ _
  rw [targetMatches_spell hcount rule.targetKind hne hne']
  rfl

end HeaderGuard

namespace JwtAuth

/-- With this method every file is in the scope of a rule, or none is. -/
def Uniform (rules : List AuthRule) (method : Bytes) (headers : List HeaderField) : Prop :=
  rules = [] ∨ ∀ t u, Servable t → Servable u →
    (∃ rule ∈ rules, ruleMatches rule (requestFor method headers t) = true) →
      ∃ rule ∈ rules, ruleMatches rule (requestFor method headers u) = true

theorem enforces_iff {rules : List AuthRule} {request : Request} (hne : rules ≠ []) :
    enforces rules request = true ↔ ∃ rule ∈ rules, ruleMatches rule request = true := by
  have hempty : rules.isEmpty = false := by simpa using hne
  rw [enforces, hempty, Bool.false_or, List.any_eq_true]

theorem enforces_congr {rules : List AuthRule} {left right : Request}
    (h : ∀ rule ∈ rules, ruleMatches rule left = ruleMatches rule right) :
    enforces rules left = enforces rules right := by
  have hany : rules.any (ruleMatches · left) = rules.any (ruleMatches · right) := by
    induction rules with
    | nil => rfl
    | cons rule rules ih =>
        rw [List.any_cons, List.any_cons, h rule List.mem_cons_self,
          ih fun r hr => h r (List.mem_cons_of_mem rule hr)]
  rw [enforces, enforces, hany]

theorem enforces_eq_of_uniform {rules : List AuthRule} {method : Bytes}
    {headers : List HeaderField} (h : Uniform rules method headers) {t u : Bytes}
    (ht : Servable t) (hu : Servable u) :
    enforces rules (requestFor method headers t) =
      enforces rules (requestFor method headers u) := by
  rcases h with rfl | h
  · rfl
  · by_cases hne : rules = []
    · rw [hne]
      rfl
    · rw [Bool.eq_iff_iff, enforces_iff hne, enforces_iff hne]
      exact ⟨h t u ht hu, h u t hu ht⟩

theorem ruleMatches_spell {rule : AuthRule} {method : Bytes} {headers : List HeaderField}
    {count : Nat} (hcount : rule.targetPattern.length ≤ count) {path path' : Path}
    (hne : path ≠ []) (hne' : path' ≠ []) :
    ruleMatches rule (requestFor method headers (spell count path)) =
      ruleMatches rule (requestFor method headers (spell count path')) := by
  show (_ && targetMatches rule.targetKind rule.targetPattern (spell count path)) = _
  rw [targetMatches_spell hcount rule.targetKind hne hne']
  rfl

end JwtAuth

/-- Both guards treat every two targets that name the same file alike. -/
def GuardsAgree (rules : List HeaderGuard.GuardRule) (authRules : List JwtAuth.AuthRule)
    (method : Bytes) (headers : List HeaderField) : Prop :=
  ∀ t u path, isValidTarget t = true → isValidTarget u = true →
    mapToRelativePath t = some path → mapToRelativePath u = some path →
    HeaderGuard.handle rules (requestFor method headers t) =
        HeaderGuard.handle rules (requestFor method headers u) ∧
      JwtAuth.enforces authRules (requestFor method headers t) =
        JwtAuth.enforces authRules (requestFor method headers u)

/-- Guards that agree on all spellings of each file cannot tell two files apart: each is
treated like its spelling with slashes beyond every pattern, and those look alike. -/
theorem eq_of_guardsAgree {rules : List HeaderGuard.GuardRule}
    {authRules : List JwtAuth.AuthRule} {method : Bytes} {headers : List HeaderField}
    (h : GuardsAgree rules authRules method headers) {t u : Bytes} (ht : Servable t)
    (hu : Servable u) :
    HeaderGuard.handle rules (requestFor method headers t) =
        HeaderGuard.handle rules (requestFor method headers u) ∧
      JwtAuth.enforces authRules (requestFor method headers t) =
        JwtAuth.enforces authRules (requestFor method headers u) := by
  obtain ⟨path, hpath⟩ := Option.isSome_iff_exists.mp ht.2
  obtain ⟨path', hpath'⟩ := Option.isSome_iff_exists.mp hu.2
  have hne := (segment_of_mapToRelativePath hpath).1
  have hne' := (segment_of_mapToRelativePath hpath').1
  let lengths := rules.map (·.targetPattern.length) ++ authRules.map (·.targetPattern.length)
  have hlong : ∀ n ∈ lengths, n ≤ lengths.sum := fun n hn => List.le_sum_of_mem hn
  obtain ⟨hvalid, hspell⟩ := spell_of_mapToRelativePath ht.1 hpath lengths.sum
  obtain ⟨hvalid', hspell'⟩ := spell_of_mapToRelativePath hu.1 hpath' lengths.sum
  obtain ⟨hguard, hauth⟩ := h t (spell lengths.sum path) path ht.1 hvalid hpath hspell
  obtain ⟨hguard', hauth'⟩ := h u (spell lengths.sum path') path' hu.1 hvalid' hpath' hspell'
  have hsame : HeaderGuard.handle rules (requestFor method headers (spell lengths.sum path)) =
      HeaderGuard.handle rules (requestFor method headers (spell lengths.sum path')) := by
    apply Guard.handle_congr
    intro rule hrule
    refine HeaderGuard.refuses_spell (hlong _ ?_) hne hne'
    exact List.mem_append_left _ (List.mem_map_of_mem hrule)
  have hscope : JwtAuth.enforces authRules (requestFor method headers (spell lengths.sum path)) =
      JwtAuth.enforces authRules (requestFor method headers (spell lengths.sum path')) := by
    apply JwtAuth.enforces_congr
    intro rule hrule
    refine JwtAuth.ruleMatches_spell (hlong _ ?_) hne hne'
    exact List.mem_append_right _ (List.mem_map_of_mem hrule)
  exact ⟨hguard.trans (hsame.trans hguard'.symm), hauth.trans (hscope.trans hauth'.symm)⟩

/-- The guards agree on what every target names exactly when, for the method and headers
at hand, the header guard refuses all files with one response or none, and the
authentication has all files in scope or none. -/
theorem guardsAgree_iff_uniform (rules : List HeaderGuard.GuardRule)
    (authRules : List JwtAuth.AuthRule) (method : Bytes) (headers : List HeaderField) :
    GuardsAgree rules authRules method headers ↔
      HeaderGuard.Uniform rules method headers ∧ JwtAuth.Uniform authRules method headers := by
  constructor
  · intro h
    refine ⟨?_, ?_⟩
    · intro t u ht hu response hrefusal
      have hsame := (eq_of_guardsAgree h ht hu).1
      rw [← HeaderGuard.handle_eq_respond_iff] at hrefusal ⊢
      rw [← hsame, hrefusal]
    · by_cases hne : authRules = []
      · exact Or.inl hne
      · refine Or.inr ?_
        intro t u ht hu hscope
        have hsame := (eq_of_guardsAgree h ht hu).2
        rw [← JwtAuth.enforces_iff hne] at hscope ⊢
        rw [← hsame, hscope]
  · rintro ⟨hguard, hauth⟩ t u path htvalid huvalid ht hu
    have htservable : Servable t := ⟨htvalid, by rw [ht]; rfl⟩
    have huservable : Servable u := ⟨huvalid, by rw [hu]; rfl⟩
    exact ⟨HeaderGuard.handle_eq_of_uniform hguard htservable huservable,
      JwtAuth.enforces_eq_of_uniform hauth htservable huservable⟩

/-- One more slash, and the guard lets the request for a protected file pass. -/
theorem guards_disagree :
    ¬ ∀ (configText authText : Bytes) (rules : List HeaderGuard.GuardRule)
      (settings : JwtAuth.Settings) (method : Bytes) (headers : List HeaderField),
      HeaderGuard.parseRules configText = .ok rules →
      JwtAuth.configure authText = .ok settings →
      GuardsAgree rules settings.rules method headers := by
  intro h
  let rule : HeaderGuard.GuardRule :=
    { methodPattern := ascii "*", targetPattern := ascii "/secret.txt",
      headerName := ascii "X-Api-Key", expectedValue := some (ascii "dev-key"),
      failureStatus := 401, failureBody := ascii "denied" }
  let settings : JwtAuth.Settings :=
    { secret := ascii "s", alg := ascii "HS256", issuer := none, audience := none,
      rules := [] }
  have hrules : HeaderGuard.parseRules
      (ascii "rule=*|/secret.txt|X-Api-Key|dev-key|401|denied") = .ok [rule] := by
    decide +kernel
  have hsettings : JwtAuth.configure (ascii "secret=s") = .ok settings := by decide +kernel
  have hagree := h _ _ [rule] settings (ascii "GET") [] hrules hsettings
    (ascii "/secret.txt") (ascii "//secret.txt") [ascii "secret.txt"] (by decide) (by decide)
    (by decide +kernel) (by decide +kernel)
  revert hagree
  decide +kernel

end Modules
end Garcon
