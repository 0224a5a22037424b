import Sputnik.Forwarder.Select

/-!
This module contains the `Cookie` header: that the parser reads back what was rendered, and what the
key of a client depends on.
-/

namespace Sputnik

structure Cookie where
  name : ByteString
  value : ByteString
  name_ne_nil : name ≠ []
  name_first : ∀ c ∈ name.head?, isSpace c = false
  name_last : ∀ c ∈ name.getLast?, isSpace c = false
  value_last : ∀ c ∈ value.getLast?, isSpace c = false
  equals_name : parseCookie.equals ∉ name
  semicolon_name : parseCookie.semicolon ∉ name
  semicolon_value : parseCookie.semicolon ∉ value

-- a cookie with the whitespace between it and the semicolons
structure CookiePart extends Cookie where
  before : ByteString
  after : ByteString
  before_space : ∀ c ∈ before, isSpace c = true
  after_space : ∀ c ∈ after, isSpace c = true

namespace CookiePart

def pair (part : CookiePart) : ByteString := part.name ++ parseCookie.equals :: part.value

def render (part : CookiePart) : ByteString := part.before ++ (part.pair ++ part.after)

end CookiePart

def renderCookies (parts : List CookiePart) : ByteString :=
  [parseCookie.semicolon].intercalate (parts.map CookiePart.render)

-- the value of the first cookie of this name
def cookieValue (parts : List CookiePart) (name : ByteString) : ByteString :=
  ((parts.find? fun part => part.name = name).map fun part => part.value).getD []

theorem dropWhile_append_of_head {p : UInt8 → Bool} {before s : ByteString}
    (hbefore : ∀ c ∈ before, p c = true) (hs : ∀ c ∈ s.head?, p c = false)
    : (before ++ s).dropWhile p = s := by
  rw [List.dropWhile_append_of_pos hbefore]
  cases s with
  | nil => rfl
  | cons c s =>
    rw [List.dropWhile_cons_of_neg]
    simp [hs c rfl]

theorem trim_append {before s after : ByteString} (hbefore : ∀ c ∈ before, isSpace c = true)
    (hafter : ∀ c ∈ after, isSpace c = true) (hne : s ≠ [])
    (hfirst : ∀ c ∈ s.head?, isSpace c = false) (hlast : ∀ c ∈ s.getLast?, isSpace c = false)
    : trim (before ++ (s ++ after)) = s := by
  unfold trim
  have hhead : (s ++ after).head? = s.head? := by
    rw [List.head?_append_of_ne_nil _ hne]
  rw [dropWhile_append_of_head hbefore (by rwa [hhead]), List.rdropWhile, List.reverse_append,
    dropWhile_append_of_head, List.reverse_reverse]
  . simpa using hafter
  . rwa [List.head?_reverse]

namespace CookiePart

theorem pair_last (part : CookiePart) : ∀ c ∈ part.pair.getLast?, isSpace c = false := by
  unfold pair
  rw [List.getLast?_append_of_ne_nil _ (by simp)]
  have hlast := part.value_last
  cases hvalue : part.value with
  | nil =>
    intro c hc
    rw [← Option.some.inj hc]
    decide
  | cons c value =>
    rwa [List.getLast?_cons_cons, ← hvalue]

theorem trim_render (part : CookiePart) : trim part.render = part.pair := by
  apply trim_append part.before_space part.after_space _ _ part.pair_last
  . simp [pair]
  . unfold pair
    rw [List.head?_append_of_ne_nil _ part.name_ne_nil]
    apply part.name_first

theorem semicolon_render (part : CookiePart) : parseCookie.semicolon ∉ part.render := by
  have hspace : isSpace parseCookie.semicolon = false := by decide
  have hequals : parseCookie.semicolon ≠ parseCookie.equals := by decide
  unfold render pair
  simp only [List.mem_append, List.mem_cons, not_or]
  refine ⟨?_, ⟨part.semicolon_name, hequals, part.semicolon_value⟩, ?_⟩
  . intro h
    have := part.before_space _ h
    rw [hspace] at this
    contradiction
  . intro h
    have := part.after_space _ h
    rw [hspace] at this
    contradiction

theorem name_ne_equals (part : CookiePart)
    : ∀ c ∈ part.name, decide (c ≠ parseCookie.equals) = true := by
  intro c hc
  apply decide_eq_true
  intro heq
  rw [heq] at hc
  exact part.equals_name hc

theorem takeWhile_pair (part : CookiePart)
    : part.pair.takeWhile (· ≠ parseCookie.equals) = part.name := by
  unfold pair
  rw [List.takeWhile_append_of_pos part.name_ne_equals]
  simp

theorem dropWhile_pair (part : CookiePart)
    : part.pair.dropWhile (· ≠ parseCookie.equals) = parseCookie.equals :: part.value := by
  unfold pair
  rw [List.dropWhile_append_of_pos part.name_ne_equals]
  simp

end CookiePart

theorem parseCookie_go_render (name : ByteString) (parts : List CookiePart)
    : parseCookie.go name (parts.map CookiePart.render) = cookieValue parts name := by
  induction parts with
  | nil => rfl
  | cons part parts ih =>
    have hequals : parseCookie.equals ∈ part.pair := by simp [CookiePart.pair]
    rw [List.map_cons, parseCookie.go]
    dsimp
    rw [part.trim_render, part.takeWhile_pair, part.dropWhile_pair, List.tail_cons, ih]
    unfold cookieValue
    by_cases hname : part.name = name
    . simp [hequals, hname]
    . simp [hname]

theorem parseCookie_render (parts : List CookiePart) (name : ByteString)
    : parseCookie (renderCookies parts) name = cookieValue parts name := by
  rw [← parseCookie_go_render]
  unfold parseCookie renderCookies
  cases parts with
  | nil => rfl
  | cons part parts =>
    rw [List.splitOn_intercalate]
    . intro l hl
      rcases List.mem_map.mp hl with ⟨other, _, rfl⟩
      apply other.semicolon_render
    . simp

-- The two requests agree on what the key is made from where no cookie is set.
structure SameClient (theRequest other : Request) : Prop where
  clientIP : theRequest.getClientIP = other.getClientIP
  forwardedFor : theRequest.getHeader (ByteString.lit "X-Forwarded-For")
    = other.getHeader (ByteString.lit "X-Forwarded-For")
  userAgent : theRequest.getHeader (ByteString.lit "User-Agent")
    = other.getHeader (ByteString.lit "User-Agent")

-- The request has no `Cookie` header, or one without a value for this name.
def Anonymous (name : ByteString) (theRequest : Request) : Prop :=
  ∀ header, theRequest.getHeader (ByteString.lit "Cookie") = some header →
    ∃ parts, header = renderCookies parts ∧ cookieValue parts name = []

def Identified (name value : ByteString) (theRequest : Request) : Prop :=
  ∃ parts, theRequest.getHeader (ByteString.lit "Cookie") = some (renderCookies parts)
    ∧ cookieValue parts name = value ∧ value ≠ []

theorem cookieValue_nil (parts : List CookiePart) : cookieValue parts [] = [] := by
  have hnone : parts.find? (fun part => part.name = []) = none := by
    rw [List.find?_eq_none]
    intro part _
    simpa using part.name_ne_nil
  unfold cookieValue
  rw [hnone]
  rfl

namespace BackendForwarder

-- the key where no cookie is configured
def clientKey (theRequest : Request) : ByteString := extractKey [] theRequest

theorem extractKey_of_identified {name value : ByteString} {theRequest : Request}
    (h : Identified name value theRequest)
    : extractKey name theRequest = ByteString.lit "c:" ++ value := by
  rcases h with ⟨parts, hheader, hvalue, hne⟩
  have hname : name ≠ [] := by
    rintro rfl
    exact hne (by rw [← hvalue, cookieValue_nil])
  unfold extractKey
  simp [hheader, parseCookie_render, hvalue, hne, hname]

theorem extractKey_of_anonymous {name : ByteString} {theRequest : Request}
    (h : Anonymous name theRequest) : extractKey name theRequest = clientKey theRequest := by
  unfold clientKey extractKey
  cases hheader : theRequest.getHeader (ByteString.lit "Cookie") with
  | none => simp
  | some header =>
    rcases h header hheader with ⟨parts, rfl, hvalue⟩
    simp [parseCookie_render, hvalue]

theorem clientKey_congr {theRequest other : Request} (h : SameClient theRequest other)
    : clientKey theRequest = clientKey other := by
  unfold clientKey extractKey
  rw [h.clientIP, h.forwardedFor, h.userAgent]
  rfl

theorem clientKey_ne (theRequest : Request) (value : ByteString)
    : clientKey theRequest ≠ ByteString.lit "c:" ++ value := by
  intro h
  have hhead := congrArg List.head? h
  simp [clientKey, extractKey, ByteString.lit] at hhead

variable {F : Type} [FloatArith F]

theorem stickySelect_congr {fw fw' : BackendForwarder F} {theReactor theReactor' : Reactor}
    (hinfos : fw.itsBackendInfos = fw'.itsBackendInfos)
    (ha : fw.itsBalancingCoefficient = fw'.itsBalancingCoefficient)
    (hcounts : theReactor.getBackendRequestStatus = theReactor'.getBackendRequestStatus)
    (key : ByteString) : fw.stickySelect theReactor key = fw'.stickySelect theReactor' key := by
  unfold stickySelect minCount connectionCount stickySkip
  rw [hinfos, ha, hcounts]

theorem getBackend_sticky_congr {fw fw' : BackendForwarder F} {theReactor theReactor' : Reactor}
    {theRequest other : Request} {itsGenerator itsGenerator' : Generator F}
    (hmode : fw.mode = .sticky) (hsettings : fw.settings = fw'.settings)
    (hinfos : fw.itsBackendInfos = fw'.itsBackendInfos)
    (hcounts : theReactor.getBackendRequestStatus = theReactor'.getBackendRequestStatus)
    (hkey : extractKey fw.itsCookieName theRequest = extractKey fw.itsCookieName other)
    : fw.getBackend theReactor theRequest itsGenerator
        =
      fw'.getBackend theReactor' other itsGenerator' := by
  simp only [settings, Prod.mk.injEq] at hsettings
  rcases hsettings with ⟨hmodes, ha, hname⟩
  have hmode' : fw'.mode = .sticky := by rw [← hmodes, hmode]
  by_cases hnil : fw.itsBackendInfos = []
  . have hnil' : fw'.itsBackendInfos = [] := by rw [← hinfos, hnil]
    rw [getBackend_sticky_nil _ _ _ hmode hnil, getBackend_sticky_nil _ _ _ hmode' hnil']
  . have hne' : fw'.itsBackendInfos ≠ [] := by rwa [← hinfos]
    rw [getBackend_sticky _ _ _ hmode hnil, getBackend_sticky _ _ _ hmode' hne', ← hname, hkey,
      stickySelect_congr hinfos ha hcounts]

/--
The key of a client is the value of the first cookie of the configured name, whatever else the
request says. Where this is empty or missing the key does not depend on the cookies, and is not the
key of a cookie. So two requests with one identity go to one backend.
-/
theorem extractKey_follows (name : ByteString) (theRequest : Request)
    : (∀ value, Identified name value theRequest →
        extractKey name theRequest = ByteString.lit "c:" ++ value)
      ∧ (Anonymous name theRequest →
          (∀ other, SameClient theRequest other → Anonymous name other →
            extractKey name theRequest = extractKey name other)
          ∧ ∀ value, extractKey name theRequest ≠ ByteString.lit "c:" ++ value)
      ∧ (∀ value (other : Request) (fw fw' : BackendForwarder F) theReactor theReactor'
          itsGenerator itsGenerator',
          Identified name value theRequest → Identified name value other →
          fw.mode = .sticky → fw.itsCookieName = name →
          fw.settings = fw'.settings → fw.itsBackendInfos = fw'.itsBackendInfos →
          theReactor.getBackendRequestStatus = theReactor'.getBackendRequestStatus →
            fw.getBackend theReactor theRequest itsGenerator
              = fw'.getBackend theReactor' other itsGenerator') := by
  refine ⟨?_, ?_, ?_⟩
  . intro value h
    apply extractKey_of_identified h
  . intro h
    rw [extractKey_of_anonymous h]
    refine ⟨?_, clientKey_ne theRequest⟩
    intro other hsame hother
    rw [extractKey_of_anonymous hother, clientKey_congr hsame]
  . intro value other fw fw' theReactor theReactor' itsGenerator itsGenerator' h hother hmode hname
      hsettings hinfos hcounts
    apply getBackend_sticky_congr hmode hsettings hinfos hcounts
    rw [hname, extractKey_of_identified h, extractKey_of_identified hother]

section Sample

open Sample

def userid : CookiePart where
  name := ByteString.lit "userid"
  value := ByteString.lit "7=7"
  name_ne_nil := by decide
  name_first := by simp [ByteString.lit, isSpace]
  name_last := by simp [ByteString.lit, isSpace]
  value_last := by simp [ByteString.lit, isSpace]
  equals_name := by decide
  semicolon_name := by decide
  semicolon_value := by decide
  before := []
  after := ByteString.lit " "
  before_space := by simp
  after_space := by simp [ByteString.lit, isSpace]

def id42 : CookiePart :=
  { userid with
    name := ByteString.lit "id"
    value := ByteString.lit "42"
    name_ne_nil := by decide
    name_first := by simp [ByteString.lit, isSpace]
    name_last := by simp [ByteString.lit, isSpace]
    value_last := by simp [ByteString.lit, isSpace]
    equals_name := by decide
    semicolon_name := by decide
    semicolon_value := by decide }

def withCookies (parts : List CookiePart) : Request :=
  { request with
    getHeader := fun header =>
      if header = ByteString.lit "Cookie" then some (renderCookies parts) else none }

theorem extractKey_follows_sample
    : extractKey (ByteString.lit "id") (withCookies [userid, id42]) = ByteString.lit "c:42" := by
  apply (extractKey_follows (F := Rat) (ByteString.lit "id") (withCookies [userid, id42])).1
    (ByteString.lit "42")
  refine ⟨[userid, id42], rfl, ?_, ?_⟩
  . decide
  . decide

end Sample

end BackendForwarder

end Sputnik
