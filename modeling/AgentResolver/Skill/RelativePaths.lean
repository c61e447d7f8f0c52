import AgentResolver.Skill.Planning
import AgentResolver.Web.HttpUrls

/-!
# Where a relative skill path leads

`normalizePath` puts a slash in front of a skill that has no URL scheme, unless it starts with one,
and calls the result a path. The URL parser reads it as a path only when no second slash follows:
otherwise the text after the slashes is an authority, and its host takes the place of the origin's.
`relative_skill_origin` says exactly which references stay on the effective origin.
-/

namespace AgentResolver

open JavaScript Web

variable {idna : Idna}

/-- The reference keeps the host and the port of the origin it is resolved against: after its first
slash it names no authority, or one with that host and port. -/
def StaysOnOrigin (idna : Idna) (base : Url) (reference : JSString) : Prop :=
  KeepsHostPort idna base (stripTail (toScalars (reference.drop 1)))

theorem resolved_origin_iff {origin reference : JSString} {base url : Url} {skill : Option JSString}
    (horigin : newUrl idna origin = some base) (hbase : base.IsHttp)
    (hreference : relativeReference skill = some reference)
    (hurl : newUrlWithBase idna reference origin = some url) :
    url.origin = base.origin ↔ StaysOnOrigin idna base reference := by
  obtain ⟨rest, rfl⟩ := relative_reference_rooted hreference
  rw [new_url_rooted horigin] at hurl
  exact rooted_origin_iff hbase hurl

/-- The candidate of a relative skill is the first one of the plan, and it is the resolved
reference. -/
theorem relative_candidate_first {scheme name reference : JSString} {metadata : Properties JSString}
    {base : Url} {plan : SkillCandidatePlan}
    (horigin :
      newUrl idna (expectedOrigin idna scheme name (declaredEndpoint metadata)) = some base)
    (hbase : base.IsHttp) (hreference : relativeReference (declaredSkill metadata) = some reference)
    (hplan : buildSkillCandidatePlan idna name metadata scheme = .ok plan) :
    ∃ url, newUrlWithBase idna reference
        (expectedOrigin idna scheme name (declaredEndpoint metadata)) = some url ∧
      plan.candidates.head? = some ⟨reference, url.href⟩ := by
  obtain ⟨hresolves, rfl⟩ := (build_plan_ok_http horigin hbase).mp hplan
  obtain ⟨url, hurl⟩ := Option.isSome_iff_exists.mp (hresolves reference hreference)
  refine ⟨url, hurl, ?_⟩
  have habsolute : absoluteSkill idna (declaredSkill metadata) = none := by
    cases habsolute : absoluteSkill idna (declaredSkill metadata) with
    | none => rfl
    | some parsed =>
        rw [relative_reference_of_absolute habsolute] at hreference
        cases hreference
  have hdeclared : declaredCandidate idna
      (expectedOrigin idna scheme name (declaredEndpoint metadata)) (declaredSkill metadata) =
        some ⟨reference, url.href⟩ := by
    rw [declaredCandidate, habsolute, hreference, Option.map_none, Option.none_or,
      Option.bind_some, resolvedCandidate, hurl, Option.map_some]
  rw [hdeclared]
  rfl

/-- Whenever planning returns, the candidate of a relative skill has the resolved reference as its
path, and its URL is on the effective origin exactly when the reference names no other host and
port. -/
theorem relative_skill_origin {scheme name reference : JSString} {metadata : Properties JSString}
    {base : Url} {plan : SkillCandidatePlan}
    (horigin :
      newUrl idna (expectedOrigin idna scheme name (declaredEndpoint metadata)) = some base)
    (hhttp : isHttpUrl base)
    (hreference : relativeReference (declaredSkill metadata) = some reference)
    (hplan : buildSkillCandidatePlan idna name metadata scheme = .ok plan) :
    ∃ url, newUrlWithBase idna reference
        (expectedOrigin idna scheme name (declaredEndpoint metadata)) = some url ∧
      plan.candidates.head? = some ⟨reference, url.href⟩ ∧
      (url.origin = base.origin ↔ StaysOnOrigin idna base reference) := by
  have hbase := new_url_http horigin hhttp
  obtain ⟨url, hurl, hfirst⟩ := relative_candidate_first horigin hbase hreference hplan
  exact ⟨url, hurl, hfirst, resolved_origin_iff horigin hbase hreference hurl⟩

/-- A path below the root stays on the origin. -/
theorem relative_skill_origin_example :
    ∃ base plan, newUrl .ascii (text "https://example") = some base ∧
      buildSkillCandidatePlan .ascii (text "example") [(text "skill", text "docs/SKILL.md")]
        (text "https") = .ok plan ∧
      ∃ url, newUrlWithBase .ascii (text "/docs/SKILL.md") (text "https://example") = some url ∧
        plan.candidates.head? = some ⟨text "/docs/SKILL.md", url.href⟩ ∧
        (url.origin = base.origin ↔ StaysOnOrigin .ascii base (text "/docs/SKILL.md")) :=
  ⟨_, _, rfl, rfl, @relative_skill_origin .ascii (text "https") (text "example")
    (text "/docs/SKILL.md") [(text "skill", text "docs/SKILL.md")] _ _ rfl (by decide +kernel)
    (by decide +kernel) rfl⟩

/-- A skill that starts with two slashes is a reference without a scheme, and its candidate is on
the host that it names. -/
theorem network_skill_leaves_origin :
    relativeReference (some (text "//evil.example/SKILL.md")) =
        some (text "//evil.example/SKILL.md") ∧
      ∃ base plan url, newUrl .ascii (text "https://example") = some base ∧
        buildSkillCandidatePlan .ascii (text "example")
          [(text "skill", text "//evil.example/SKILL.md")] (text "https") = .ok plan ∧
        newUrlWithBase .ascii (text "//evil.example/SKILL.md") (text "https://example") = some url ∧
        plan.candidates.head? = some ⟨text "//evil.example/SKILL.md", url.href⟩ ∧
        url.origin = text "https://evil.example" ∧ url.origin ≠ base.origin :=
  ⟨by decide, _, _, _, rfl, rfl, rfl, rfl, rfl, by decide +kernel⟩

end AgentResolver
