import ChangeFeed.Conninfo.Target
import ChangeFeed.Proofs.Conninfo.Stripping

/-!
What is left of a connection URL without its `replication` option. Main statement: it is read with the
credentials, hosts and path of before, and with the parameters that are not of that key; the ampersands
of empty pairs go with them. This needs credentials without a question mark, since the function takes
the first one in the text for the one before the parameters.
-/
namespace ChangeFeed.Text

section Members

variable {mark c : Char}

theorem notMem_parts {cs : List Char} (free : c ∉ cs) : ∀ p ∈ parts mark cs, c ∉ p := by
  induction cs with
  | nil => simp [parts]
  | cons d cs ih =>
    rw [List.mem_cons, not_or] at free
    have later := ih free.2
    rw [parts]
    split
    · exact List.forall_mem_cons.mpr ⟨List.not_mem_nil, later⟩
    · split
      · simp [free.1]
      · rename_i p ps divided
        rw [divided, List.forall_mem_cons] at later
        refine List.forall_mem_cons.mpr ⟨?_, later.2⟩
        rw [List.mem_cons, not_or]
        exact ⟨free.1, later.1⟩

/-- A text that is joined to others is followed by nothing or by a mark and the others. -/
theorem join_eq_append (mark : Char) (text : List Char) (texts : List (List Char)) :
    ∃ rest, join mark (text :: texts) = text ++ rest ∧ (∀ c ∈ rest.head?, c = mark) ∧
      rest.drop 1 = join mark texts := by
  cases texts with
  | nil => exact ⟨[], by simp [join], by simp, rfl⟩
  | cons t ts => exact ⟨mark :: join mark (t :: ts), rfl, by simp, rfl⟩

theorem notMem_of_begins {rest : List Char} (other : c ≠ mark) (begins : ∀ d ∈ rest.head?, d = mark)
    (free : c ∉ rest.drop 1) : c ∉ rest := by
  cases rest with
  | nil => exact List.not_mem_nil
  | cons d rest =>
    rw [begins d rfl, List.mem_cons, not_or]
    exact ⟨other, free⟩

theorem notMem_join {texts : List (List Char)} (other : c ≠ mark) (free : ∀ t ∈ texts, c ∉ t) :
    c ∉ join mark texts := by
  induction texts with
  | nil => exact List.not_mem_nil
  | cons t ts ih =>
    obtain ⟨first, later⟩ := List.forall_mem_cons.mp free
    obtain ⟨rest, joined, begins, others⟩ := join_eq_append mark t ts
    rw [joined, List.mem_append, not_or]
    exact ⟨first, notMem_of_begins other begins (others ▸ ih later)⟩

end Members

end ChangeFeed.Text

namespace ChangeFeed.Conninfo

open Text

namespace Url

section Schemes

variable {cs rest scheme : List Char}

theorem scheme_of_afterScheme? (found : afterScheme? cs = some rest) :
    ∃ scheme ∈ schemes, cs = scheme ++ rest := by
  obtain ⟨scheme, first, rfl⟩ := Option.map_eq_some_iff.mp found
  have front := List.find?_some first
  obtain ⟨rest, rfl⟩ := List.isPrefixOf_iff_prefix.mp front
  exact ⟨scheme, List.mem_of_find?_eq_some first, by simp⟩

theorem afterScheme?_append (known : scheme ∈ schemes) (rest : List Char) :
    afterScheme? (scheme ++ rest) = some rest := by
  simp only [schemes, List.mem_cons, List.not_mem_nil, or_false] at known
  rcases known with rfl | rfl <;> rfl

end Schemes

/-- Hosts and path as they are written; a path begins with a slash, which is no part of it. -/
inductive Place (hosts : List Char) : List Char → List Char → Prop
  | bare (free : '/' ∉ hosts) : Place hosts [] hosts
  | deep {path : List Char} (free : '/' ∉ hosts) : Place hosts path (hosts ++ '/' :: path)

/-- The text before the parameters. -/
def front : Option (List Char) → List Char → List Char
  | some credentials, place => credentials ++ '@' :: place
  | none, place => place

theorem exists_place (text : List Char) : ∃ hosts path, Place hosts path text := by
  cases slash : cut? '/' text with
  | none => exact ⟨text, [], .bare (cut?_eq_none_iff.mp slash)⟩
  | some halves =>
    obtain ⟨rfl, free⟩ := cut?_eq_some_iff.mp slash
    exact ⟨halves.1, halves.2, .deep free⟩

/-- Reads what follows the credentials. -/
def readPlace (credentials : Option (List Char)) (cs : List Char) : Option Url :=
  let endsHosts := fun c => c == '/' || c == '?'
  let divided := match cs.dropWhile (!endsHosts ·) with
    | '/' :: rest => (rest.takeWhile (· != '?'), rest.dropWhile (· != '?'))
    | rest => ([], rest)
  (params? (divided.2.drop 1)).map (⟨credentials, cs.takeWhile (!endsHosts ·), divided.1, ·⟩)

theorem read?_eq (cs : List Char) :
    read? cs = (cut? '@' cs).elim (readPlace none cs) fun p => readPlace (some p.1) p.2 := by
  unfold read?
  cases cut? '@' cs <;> rfl

section Reading

variable {credentials : Option (List Char)} {hosts path place query : List Char}

theorem front_append (credentials : Option (List Char)) (place query : List Char) :
    front credentials place ++ query = front credentials (place ++ query) := by
  cases credentials with
  | none => rfl
  | some cs => exact List.append_assoc cs ('@' :: place) query

theorem not_endsHosts {c : Char} {cs : List Char} (member : c ∈ cs) (noSlash : '/' ∉ cs)
    (noMark : '?' ∉ cs) : (!(c == '/' || c == '?')) = true := by
  simp [ne_of_mem_of_not_mem member noSlash, ne_of_mem_of_not_mem member noMark]

/-- A text is divided where its query begins. -/
theorem readPlace_append (divided : Place hosts path place) (before : '?' ∉ place)
    (begins : ∀ c ∈ query.head?, c = '?') (credentials : Option (List Char)) :
    readPlace credentials (place ++ query) =
      (params? (query.drop 1)).map (⟨credentials, hosts, path, ·⟩) := by
  cases divided with
  | bare free =>
    have spans := Grammar.span_append (fun c member => not_endsHosts member free before) query
      fun c first => by rw [begins c first]; rfl
    have pathless : ∀ rest, query ≠ '/' :: rest := by
      rintro rest rfl
      cases begins '/' rfl
    simp only [readPlace, spans.1, spans.2]
  | @deep path free =>
    rw [List.mem_append, List.mem_cons, not_or, not_or] at before
    obtain ⟨noMark, -, before⟩ := before
    have spans := Grammar.span_append (fun c member => not_endsHosts member free noMark)
      ('/' :: (path ++ query)) (by rintro _ ⟨⟩; rfl)
    have spans' := Grammar.span_append (p := (· != '?'))
      (fun c member => bne_iff_ne.mpr (ne_of_mem_of_not_mem member before)) query
      fun c first => by rw [begins c first]; rfl
    rw [List.append_assoc, List.cons_append]
    simp only [readPlace, spans.1, spans.2, spans'.1, spans'.2]

/-- What follows the scheme, divided before its query: the first `@` ends the credentials. -/
structure Divides (credentials : Option (List Char)) (hosts path place query : List Char) : Prop where
  divided : Place hosts path place
  own : ∀ cs ∈ credentials, '@' ∉ cs
  anonymous : credentials = none → '@' ∉ place ++ query
  before : '?' ∉ place
  begins : ∀ c ∈ query.head?, c = '?'

theorem Divides.read (divides : Divides credentials hosts path place query) :
    read? (front credentials place ++ query) =
      (params? (query.drop 1)).map (⟨credentials, hosts, path, ·⟩) := by
  rw [front_append, read?_eq]
  cases credentials with
  | none =>
    rw [front, cut?_eq_none_iff.mpr (divides.anonymous rfl)]
    exact readPlace_append divides.divided divides.before divides.begins none
  | some cs =>
    rw [front, cut?_append (divides.own cs rfl)]
    exact readPlace_append divides.divided divides.before divides.begins (some cs)

theorem exists_divides (rest : List Char) : ∃ credentials hosts path place query,
    rest = front credentials place ++ query ∧ Divides credentials hosts path place query := by
  obtain ⟨credentials, body, rfl, own, anonymous⟩ : ∃ credentials body, rest = front credentials body ∧
      (∀ cs ∈ credentials, '@' ∉ cs) ∧ (credentials = none → '@' ∉ body) := by
    cases login : cut? '@' rest with
    | none => exact ⟨none, rest, rfl, by simp, fun _ => cut?_eq_none_iff.mp login⟩
    | some halves =>
      obtain ⟨rfl, free⟩ := cut?_eq_some_iff.mp login
      exact ⟨some halves.1, halves.2, rfl, by rintro _ ⟨⟩; exact free, by simp⟩
  have whole : body.takeWhile (· != '?') ++ body.dropWhile (· != '?') = body :=
    List.takeWhile_append_dropWhile
  obtain ⟨hosts, path, place⟩ := exists_place (body.takeWhile (· != '?'))
  refine ⟨credentials, hosts, path, _, body.dropWhile (· != '?'), by rw [front_append, whole], place, own,
    by rwa [whole], fun mark => ?_, fun c first => ?_⟩
  · simpa using List.mem_takeWhile_imp mark
  · have stops := List.head?_dropWhile_not (· != '?') body
    rw [first] at stops
    simpa using stops

end Reading

section Parameters

/-- The parameters that a query names, one after the other. -/
inductive Params : List Char → List (List Char × List Char) → Prop
  | nil : Params [] []
  | cons {key value rest : List Char} {ps : List (List Char × List Char)} (noSign : '=' ∉ key)
    (noMark : '&' ∉ value) (next : ∀ c ∈ rest.head?, c = '&') (others : Params (rest.drop 1) ps) :
    Params (key ++ '=' :: (value ++ rest)) ((key, value) :: ps)

theorem params_of_params? {query : List Char} {ps : List (List Char × List Char)}
    (reads : params? query = some ps) : Params query ps := by
  fun_induction params? query generalizing ps with
  | case1 =>
    cases reads
    exact .nil
  | case2 => cases reads
  | case3 query some key rest first second =>
    cases reads
    obtain ⟨rfl, noSign⟩ := cut?_eq_some_iff.mp first
    have last : Params (key ++ '=' :: (rest ++ [])) [(key, rest)] :=
      .cons noSign (cut?_eq_none_iff.mp second) (by simp) .nil
    rwa [List.append_nil] at last
  | case4 query some key rest first value more second ih =>
    obtain ⟨others, later, rfl⟩ := Option.map_eq_some_iff.mp reads
    obtain ⟨rfl, noSign⟩ := cut?_eq_some_iff.mp first
    obtain ⟨rfl, noMark⟩ := cut?_eq_some_iff.mp second
    exact .cons noSign noMark (by simp) (ih later)

theorem Params.read {query : List Char} {ps : List (List Char × List Char)} (params : Params query ps) :
    params? query = some ps := by
  induction params with
  | nil =>
    rw [params?]
    rfl
  | @cons key value rest ps noSign noMark next others ih =>
    rw [params?, if_neg (by simp)]
    split <;> rename_i first <;> rw [cut?_append noSign] at first <;> cases first
    cases rest with
    | nil =>
      rw [List.drop_nil, params?, if_pos rfl] at ih
      cases ih
      rw [List.append_nil]
      split
      · rfl
      · rename_i second
        rw [cut?_eq_none_iff.mpr noMark] at second
        cases second
    | cons c more =>
      obtain rfl := next c rfl
      split <;> rename_i second <;> rw [cut?_append noMark] at second <;> cases second
      exact congrArg (Option.map _) ih

/-- A key without the ampersands of the empty pairs before it. -/
def ownKey (key : List Char) : List Char := key.dropWhile (· == '&')

theorem notMem_ownKey {c : Char} {key : List Char} (free : c ∉ key) : c ∉ ownKey key :=
  fun member => free ((List.dropWhile_sublist _).subset member)

/-- What stays of parameters: those of another key, without the empty pairs before them. -/
def stripped (params : List (List Char × List Char)) : List (List Char × List Char) :=
  (params.map fun p => (ownKey p.1, p.2)).filter (·.1 != replicationKey)

/-- What stays of the parts of a query. -/
def keptParts (query : List Char) : List (List Char) :=
  (parts '&' query).filter fun p => p != [] && !setsReplication p

theorem setsReplication_iff {key value : List Char} (free : '=' ∉ key) :
    setsReplication (key ++ '=' :: value) = true ↔ key = replicationKey := by
  rw [setsReplication, List.isPrefixOf_iff_prefix]
  constructor
  · rintro ⟨rest, same⟩
    rw [List.append_assoc, List.singleton_append] at same
    have cut := cut?_append free value
    rw [← same, cut?_append (by decide)] at cut
    cases cut
    rfl
  · rintro rfl
    exact ⟨value, by rw [List.append_assoc]; rfl⟩

theorem keptParts_ampersand (query : List Char) : keptParts ('&' :: query) = keptParts query := by
  rw [keptParts, parts, if_pos rfl]
  rfl

theorem keptParts_ownKey (key rest : List Char) :
    keptParts (key ++ rest) = keptParts (ownKey key ++ rest) := by
  induction key with
  | nil => rfl
  | cons c key ih =>
    by_cases mark : c = '&'
    · subst mark
      exact (keptParts_ampersand (key ++ rest)).trans ih
    · rw [ownKey, List.dropWhile_cons_of_neg (by simpa using mark)]

/-- The first part of a query stays or goes, and so do the others. -/
theorem keptParts_append {part rest : List Char} (free : '&' ∉ part) (next : ∀ c ∈ rest.head?, c = '&') :
    keptParts (part ++ rest) =
      [part].filter (fun p => p != [] && !setsReplication p) ++ keptParts (rest.drop 1) := by
  cases rest with
  | nil =>
    rw [List.append_nil, keptParts, parts_of_notMem free]
    exact (List.append_nil _).symm
  | cons c more =>
    obtain rfl := next c rfl
    rw [keptParts, parts_append free, ← List.singleton_append, List.filter_append]
    rfl

theorem keptParts_cons {key value rest : List Char} (noSign : '=' ∉ key) (apart : '&' ∉ ownKey key)
    (noMark : '&' ∉ value) (next : ∀ c ∈ rest.head?, c = '&') :
    keptParts (key ++ '=' :: (value ++ rest)) =
      if ownKey key = replicationKey then keptParts (rest.drop 1)
      else (ownKey key ++ '=' :: value) :: keptParts (rest.drop 1) := by
  have own : '=' ∉ ownKey key := notMem_ownKey noSign
  have free : '&' ∉ ownKey key ++ '=' :: value := by simp [apart, noMark]
  have part : ownKey key ++ '=' :: (value ++ rest) = (ownKey key ++ '=' :: value) ++ rest := by simp
  rw [keptParts_ownKey, part, keptParts_append free next]
  split
  · rename_i option
    have sets : setsReplication (ownKey key ++ '=' :: value) = true := (setsReplication_iff own).mpr option
    rw [List.filter_cons_of_neg (by rw [sets]; simp)]
    rfl
  · rename_i other
    have keeps : setsReplication (ownKey key ++ '=' :: value) = false :=
      Bool.eq_false_iff.mpr (mt (setsReplication_iff own).mp other)
    rw [List.filter_cons_of_pos (by rw [keeps]; simp)]
    rfl

theorem stripped_cons (key value : List Char) (ps : List (List Char × List Char)) :
    stripped ((key, value) :: ps) =
      if ownKey key = replicationKey then stripped ps else (ownKey key, value) :: stripped ps := by
  rw [stripped, List.map_cons, List.filter_cons]
  split <;> split <;> simp_all [stripped]

/-- What is left of a query names what stays of its parameters. -/
theorem Params.kept {query : List Char} {ps : List (List Char × List Char)} (params : Params query ps)
    (apart : ∀ p ∈ ps, '&' ∉ ownKey p.1) : Params (join '&' (keptParts query)) (stripped ps) := by
  induction params with
  | nil => exact .nil
  | @cons key value rest ps noSign noMark next others ih =>
    obtain ⟨own, later⟩ := List.forall_mem_cons.mp apart
    rw [keptParts_cons noSign own noMark next, stripped_cons]
    split
    · exact ih later
    · obtain ⟨rest', joined, next', others'⟩ :=
        join_eq_append '&' (ownKey key ++ '=' :: value) (keptParts (rest.drop 1))
      rw [joined, List.append_assoc, List.cons_append]
      exact .cons (notMem_ownKey noSign) noMark next' (others' ▸ ih later)

end Parameters

end Url

/-- The query that is left, with the question mark before it if there is one. -/
theorem stripUrl_append {front query : List Char} (free : '?' ∉ front)
    (begins : ∀ c ∈ query.head?, c = '?') :
    ∃ query' : List Char, stripUrl (front ++ query) = front ++ query' ∧ (∀ c ∈ query'.head?, c = '?') ∧
      query'.drop 1 = join '&' (Url.keptParts (query.drop 1)) := by
  cases query with
  | nil => exact ⟨[], by rw [stripUrl, List.append_nil, cut?_eq_none_iff.mpr free], by simp, rfl⟩
  | cons c query =>
    obtain rfl := begins c rfl
    change ∃ query' : List Char, _ ∧ _ ∧ query'.drop 1 = join '&' (Url.keptParts query)
    rw [stripUrl, cut?_append free]
    cases kept : Url.keptParts query with
    | nil =>
      rw [Url.keptParts] at kept
      exact ⟨[], by simp [kept], by simp, rfl⟩
    | cons p ps =>
      rw [Url.keptParts] at kept
      exact ⟨'?' :: join '&' (p :: ps), by simp [kept], by simp, rfl⟩

theorem notMem_keptParts {query : List Char} (free : '@' ∉ query) : '@' ∉ join '&' (Url.keptParts query) :=
  notMem_join (by decide) fun p kept => notMem_parts free p (List.mem_of_mem_filter kept)

section Stripping

variable {s : String} {rest : List Char} {u : Url}

theorem read_stripUrl (url : Url.afterScheme? (trimEnd (trimStart s.toList)) = some rest)
    (reads : Url.read? rest = some u) (plain : ∀ cs ∈ u.credentials, '?' ∉ cs)
    (apart : ∀ p ∈ u.params, '&' ∉ Url.ownKey p.1) :
    ∃ rest', Url.afterScheme? (stripReplication s).toList = some rest' ∧
      Url.read? rest' = some { u with params := Url.stripped u.params } := by
  obtain ⟨scheme, known, whole⟩ := Url.scheme_of_afterScheme? url
  obtain ⟨credentials, hosts, path, place, query, rfl, divides⟩ := Url.exists_divides rest
  rw [divides.read] at reads
  obtain ⟨ps, params, rfl⟩ := Option.map_eq_some_iff.mp reads
  have free : '?' ∉ scheme ++ Url.front credentials place := by
    have schemeless : '?' ∉ scheme := by
      simp only [Url.schemes, List.mem_cons, List.not_mem_nil, or_false] at known
      rcases known with rfl | rfl <;> decide
    cases credentials with
    | none => simp [Url.front, schemeless, divides.before]
    | some cs => simp [Url.front, schemeless, divides.before, plain cs rfl]
  obtain ⟨query', strips, begins, left⟩ := stripUrl_append free divides.begins
  have divides' : Url.Divides credentials hosts path place query' := by
    refine ⟨divides.divided, divides.own, fun none => ?_, divides.before, begins⟩
    have anonymous := divides.anonymous none
    rw [List.mem_append, not_or] at anonymous ⊢
    refine ⟨anonymous.1, notMem_of_begins (by decide) begins ?_⟩
    rw [left]
    exact notMem_keptParts fun member => anonymous.2 (List.mem_of_mem_drop member)
  have kept := ((Url.params_of_params? params).kept apart).read
  refine ⟨Url.front credentials place ++ query', ?_, ?_⟩
  · rw [stripReplication, url, Option.isSome_some, if_pos rfl, String.toList_ofList, whole,
      ← List.append_assoc, strips, List.append_assoc, Url.afterScheme?_append known]
  · rw [divides'.read, left, kept]
    rfl

/-- A URL in which every part of the query is empty or has its equals sign, and whose credentials hold no
question mark, is read with its credentials, hosts and path afterwards, and with all parameters in their
order that are not of the replication option; white space around it and empty pairs are gone. What it says
of the server and the login is what these parts say. -/
theorem read_stripReplication (url : Url.afterScheme? (trimEnd (trimStart s.toList)) = some rest)
    (reads : Url.read? rest = some u) (plain : ∀ cs ∈ u.credentials, '?' ∉ cs)
    (apart : ∀ p ∈ u.params, '&' ∉ Url.ownKey p.1) :
    (Url.afterScheme? (stripReplication s).toList).bind Url.read? =
        some { u with params := Url.stripped u.params } ∧
      Target.ofString (stripReplication s) = Target.ofUrl { u with params := Url.stripped u.params } := by
  obtain ⟨rest', url', reads'⟩ := read_stripUrl url reads plain apart
  refine ⟨by rw [url']; exact reads', ?_⟩
  rw [Target.ofString, url']
  dsimp only
  rw [reads']

end Stripping

/-- The option stands twice among the parameters, and credentials and an option hold marks of others. -/
theorem read_stripReplication_of_marked :
    let s := "postgres://u:a&replication=b@h1,h2:5433/app" ++
      "?replication=database&&sslmode=disable&replication=x&options=c@d"
    (Url.afterScheme? (stripReplication s).toList).bind Url.read? =
        some ⟨some "u:a&replication=b".toList, "h1,h2:5433".toList, "app".toList,
          [("sslmode".toList, "disable".toList), ("options".toList, "c@d".toList)]⟩ ∧
      Target.ofString (stripReplication s) = .ok
        { user := some "u", password := some (Bytes.ofString "a&replication=b"), database := some "app"
          options := some "c@d", tls := .disable
          hosts := [.name "h1", .name "h2"], ports := [5432, 5433] } := by
  intro s
  have reads : Url.read? (s.toList.drop 11) = some ⟨some "u:a&replication=b".toList, "h1,h2:5433".toList,
      "app".toList, [("replication".toList, "database".toList), ("&sslmode".toList, "disable".toList),
        ("replication".toList, "x".toList), ("options".toList, "c@d".toList)]⟩ := by
    decide +kernel
  have url : Url.afterScheme? (trimEnd (trimStart s.toList)) = some (s.toList.drop 11) := by decide +kernel
  have strips := read_stripReplication url reads (by decide +kernel) (by decide +kernel)
  exact ⟨strips.1, strips.2.trans (by decide +kernel)⟩

/-- With an empty pair the reader takes an ampersand for part of a key, which is not there afterwards. -/
theorem read_stripReplication_of_empty :
    let s := "postgres://u@db/app?connect_timeout=5&&sslmode=disable"
    let u : Url := ⟨some "u".toList, "db".toList, "app".toList,
      [("connect_timeout".toList, "5".toList), ("&sslmode".toList, "disable".toList)]⟩
    (Url.afterScheme? s.toList).bind Url.read? = some u ∧
      (Url.afterScheme? (stripReplication s).toList).bind Url.read? ≠
        some { u with params := u.params.filter (·.1 != replicationKey) } := by
  decide +kernel

/-- Behind credentials with a question mark the option stays. -/
example : stripReplication "postgres://u:p?w@db/app?replication=database" =
    "postgres://u:p?w@db/app?replication=database" := by
  decide +kernel

end ChangeFeed.Conninfo
