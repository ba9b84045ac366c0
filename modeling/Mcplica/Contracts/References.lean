import Mcplica.Contracts.Urls

/-! # URL references

`urllib.parse.urldefrag`, and the meaning RFC 3986 gives to a reference that stands in a document: the URL it
denotes, relative to the URL of the document. -/

namespace Mcplica.Contracts

open Mcplica.Library

/-! ## Composition -/

def usesParams : List Text :=
  ["", "ftp", "hdl", "prospero", "http", "imap", "https", "shttp", "rtsp", "rtsps", "rtspu", "sip", "sips", "mms",
    "sftp", "tel"]

def usesNetloc : List Text :=
  ["", "ftp", "http", "gopher", "nntp", "telnet", "imap", "wais", "file", "mms", "https", "shttp", "snews", "prospero",
    "rtsp", "rtsps", "rtspu", "rsync", "svn", "svn+ssh", "sftp", "nfs", "git", "git+ssh", "ws", "wss", "itms-services"]

def rooted (path : Text) : Bool :=
  path = [] || path.startsWith "/"

/-- `urlunsplit` -/
def urlunsplit (parts : SplitResult) : Text :=
  let url : Text :=
    if parts.netloc ≠ [] then
      ("//" : Text) ++ parts.netloc ++ (if rooted parts.path then parts.path else '/' :: parts.path)
    else if parts.path.startsWith "//" then ("//" : Text) ++ parts.path
    else if parts.scheme ≠ [] && usesNetloc.contains parts.scheme && rooted parts.path then ("//" : Text) ++ parts.path
    else parts.path
  let url := if parts.scheme ≠ [] then parts.scheme ++ ':' :: url else url
  let url := if parts.query ≠ [] then url ++ '?' :: parts.query else url
  if parts.fragment ≠ [] then url ++ '#' :: parts.fragment else url

/-- What `urlunparse` makes of the path that `urlparse` cut at a `;`: empty parameters lose their separator. -/
def withoutEmptyParams (scheme path : Text) : Text :=
  if usesParams.contains scheme && path.contains ';' then
    let (directory, name) := path.rpartition '/'
    match Text.partition ';' name with
    | (kept, some []) => (directory.elim [] fun directory => directory ++ ['/']) ++ kept
    | _ => path
  else
    path

/-- `urldefrag`; `none` where it raises `ValueError`. -/
def urldefrag (unicode : Unicode) (url : Text) : Option (Text × Text) :=
  if url.contains '#' then
    (urlsplit unicode url).map fun parsed =>
      (urlunsplit { parsed with path := withoutEmptyParams parsed.scheme parsed.path, fragment := [] }, parsed.fragment)
  else
    some (url, [])

/-! ## Resolution -/

/-- The last component of a path, after its last slash. -/
def lastSegment (path : Text) : Text :=
  (path.rpartition '/').2

/-- The path up to its last slash, without it. -/
def withoutLastSegment (path : Text) : Text :=
  ((path.rpartition '/').1).getD []

/-- The loop of section 5.2.4: the input buffer is consumed from its front into the output buffer. -/
def removeDotSegmentsFrom : Nat → Text → Text → Text
  | 0, _, output => output
  | fuel + 1, input, output =>
    if input = [] then output
    else if input.startsWith "../" then removeDotSegmentsFrom fuel (input.drop 3) output
    else if input.startsWith "./" then removeDotSegmentsFrom fuel (input.drop 2) output
    else if input.startsWith "/./" then removeDotSegmentsFrom fuel (input.drop 2) output
    else if input = "/." then removeDotSegmentsFrom fuel "/" output
    else if input.startsWith "/../" then removeDotSegmentsFrom fuel (input.drop 3) (withoutLastSegment output)
    else if input = "/.." then removeDotSegmentsFrom fuel "/" (withoutLastSegment output)
    else if input = "." || input = ".." then output
    else
      let segment := input.take 1 ++ input.tail.takeWhile (· != '/')
      removeDotSegmentsFrom fuel (input.tail.dropWhile (· != '/')) (output ++ segment)

def removeDotSegments (path : Text) : Text :=
  removeDotSegmentsFrom path.length path []

/-- Section 5.2.3: the reference takes the place of the last segment of the base. -/
def mergePaths (base : SplitResult) (path : Text) : Text :=
  if base.netloc ≠ [] && base.path = [] then '/' :: path
  else
    match (base.path.rpartition '/').1 with
    | some directory => directory ++ '/' :: path
    | none => path

/-- Section 5.2.2. -/
def resolveReference (base reference : SplitResult) : SplitResult :=
  if reference.scheme ≠ [] then { reference with path := removeDotSegments reference.path }
  else if reference.netloc ≠ [] then
    { reference with scheme := base.scheme, path := removeDotSegments reference.path }
  else if reference.path = [] then
    { base with
      query := if reference.query = [] then base.query else reference.query
      fragment := reference.fragment }
  else
    { base with
      path := removeDotSegments
        (if reference.path.startsWith "/" then reference.path else mergePaths base reference.path)
      query := reference.query
      fragment := reference.fragment }

/-! ### `urljoin` -/

def usesRelative : List Text :=
  ["", "ftp", "http", "gopher", "nntp", "imap", "wais", "file", "https", "shttp", "mms", "prospero", "rtsp", "rtsps",
    "rtspu", "sftp", "svn", "svn+ssh", "ws", "wss"]

/-- The path and the parameters of its last segment, as `urlparse` cuts them. -/
def splitParams (scheme path : Text) : Text × Text :=
  if usesParams.contains scheme && path.contains ';' then
    let (directory, name) := path.rpartition '/'
    match Text.partition ';' name with
    | (kept, some params) => ((directory.elim [] fun directory => directory ++ ['/']) ++ kept, params)
    | (_, none) => (path, [])
  else
    (path, [])

/-- `urlunparse` -/
def urlunparse (parts : SplitResult) (params : Text) : Text :=
  urlunsplit { parts with path := if params = [] then parts.path else parts.path ++ ';' :: params }

/-- One round of the loop over the segments of a path: `..` drops the last one that is kept. -/
def resolveSegment (kept : List Text) (segment : Text) : List Text :=
  if segment = ".." then kept.dropLast
  else if segment = "." then kept
  else kept ++ [segment]

def resolveSegments (segments : List Text) : List Text :=
  let kept := segments.foldl resolveSegment []
  if segments.getLast? = some ("." : Text) || segments.getLast? = some (".." : Text) then kept ++ [[]] else kept

/-- The segments of a relative path below the base; empty segments in the middle would double a slash. -/
def joinSegments (basePath path : Text) : List Text :=
  if path.startsWith "/" then path.splitOn '/'
  else
    let base := basePath.splitOn '/'
    let base := if base.getLast? = some [] then base else base.dropLast
    match base ++ path.splitOn '/' with
    | first :: rest => first :: (rest.dropLast.filter (· ≠ []) ++ rest.getLast?.toList)
    | [] => []

/-- `urljoin`; `none` where it raises `ValueError`. -/
def urljoin (unicode : Unicode) (base url : Text) : Option Text := do
  if base = [] then return url
  if url = [] then return base
  let parsedBase ← urlsplit unicode base
  let parsed ← urlsplit unicode url
  let scheme := if parsed.scheme = [] then parsedBase.scheme else parsed.scheme
  if scheme ≠ parsedBase.scheme || !usesRelative.contains scheme then return url
  let (path, params) := splitParams scheme parsed.path
  if usesNetloc.contains scheme && parsed.netloc ≠ [] then
    return urlunparse { parsed with scheme, path } params
  let netloc := if usesNetloc.contains scheme then parsedBase.netloc else parsed.netloc
  let (basePath, baseParams) := splitParams parsedBase.scheme parsedBase.path
  if path = [] && params = [] then
    let query := if parsed.query = [] then parsedBase.query else parsed.query
    return urlunparse ⟨scheme, netloc, basePath, query, parsed.fragment⟩ baseParams
  let joined := Text.join "/" (resolveSegments (joinSegments basePath path))
  return urlunparse ⟨scheme, netloc, if joined = [] then "/" else joined, parsed.query, parsed.fragment⟩ params

example : removeDotSegments "/a/b/c/./../../g" = "/a/g" := by decide

example : removeDotSegments "mid/content=5/../6" = "mid/6" := by decide

example : urljoin asciiUnicode "https://api.example.com/v1/" "../oauth/token" = some "https://api.example.com/oauth/token" := by
  decide +kernel

/-! ### The file a reference names -/

theorem lastSegment_of_not_mem {text : Text} (absent : '/' ∉ text) : lastSegment text = text := by
  unfold lastSegment
  rw [Text.rpartition_of_not_mem absent]

theorem lastSegment_append_cons (before after : Text) : lastSegment (before ++ '/' :: after) = lastSegment after := by
  unfold lastSegment Text.rpartition Text.partition
  simp only [List.reverse_append, List.reverse_cons, List.append_assoc, List.singleton_append]
  by_cases slash : '/' ∈ after
  · rw [List.takeWhile_append, if_neg]
    intro all
    have kept := List.takeWhile_eq_self_iff.mp
      ((List.takeWhile_prefix (p := (· != '/')) (l := after.reverse)).eq_of_length all) '/' (List.mem_reverse.mpr slash)
    simp at kept
  · have all : ∀ character ∈ after.reverse, (character != '/') = true := by
      intro character member
      simpa using fun same : character = '/' => slash (same ▸ List.mem_reverse.mp member)
    rw [List.takeWhile_append_of_pos all, List.takeWhile_eq_self_iff.mpr all]
    simp

theorem exists_of_startsWith {text start : Text} (starts : text.startsWith start = true) :
    ∃ rest, text = start ++ rest := by
  obtain ⟨rest, isRest⟩ := List.isPrefixOf_iff_prefix.mp starts
  exact ⟨rest, isRest.symm⟩

theorem removeDotSegmentsFrom_nil (fuel : Nat) (output : Text) : removeDotSegmentsFrom fuel [] output = output := by
  cases fuel <;> rfl

/-- A file name at the end of the input is the last thing the loop writes. -/
theorem lastSegment_removeDotSegmentsFrom {name : Text} (isFile : name ≠ []) (notHere : name ≠ ".")
    (notParent : name ≠ "..") : ∀ (fuel : Nat) (input output : Text), input.length ≤ fuel → lastSegment input = name →
      (output = [] ∨ input.head? = some '/') → lastSegment (removeDotSegmentsFrom fuel input output) = name := by
  intro fuel
  induction fuel with
  | zero =>
    intro input output bounded isLast _
    have empty : input = [] := List.length_eq_zero_iff.mp (Nat.le_zero.mp bounded)
    subst empty
    exact absurd isLast.symm isFile
  | succ fuel ih =>
    intro input output bounded isLast placed
    have nonempty : input ≠ [] := by
      rintro rfl
      exact isFile isLast.symm
    rw [removeDotSegmentsFrom, if_neg nonempty]
    by_cases parent : input.startsWith "../" = true
    · rw [if_pos parent]
      obtain ⟨rest, rfl⟩ := exists_of_startsWith parent
      have shorter : rest.length + 3 ≤ fuel + 1 := bounded
      refine ih rest output (by omega) ?_ (.inl ?_)
      · rw [← isLast]
        exact (lastSegment_append_cons ['.', '.'] rest).symm
      · exact placed.resolve_right (fun slash => by cases slash)
    rw [if_neg parent]
    by_cases here : input.startsWith "./" = true
    · rw [if_pos here]
      obtain ⟨rest, rfl⟩ := exists_of_startsWith here
      have shorter : rest.length + 2 ≤ fuel + 1 := bounded
      refine ih rest output (by omega) ?_ (.inl ?_)
      · rw [← isLast]
        exact (lastSegment_append_cons ['.'] rest).symm
      · exact placed.resolve_right (fun slash => by cases slash)
    rw [if_neg here]
    by_cases skipped : input.startsWith "/./" = true
    · rw [if_pos skipped]
      obtain ⟨rest, rfl⟩ := exists_of_startsWith skipped
      have shorter : rest.length + 3 ≤ fuel + 1 := bounded
      refine ih ('/' :: rest) output (by simp; omega) ?_ (.inr rfl)
      rw [← isLast]
      exact (lastSegment_append_cons [] rest).trans (lastSegment_append_cons ['/', '.'] rest).symm
    rw [if_neg skipped]
    -- A dot segment at the very end would be the last one of the input.
    rw [if_neg (fun same => notHere (by rw [← isLast, same]; rfl))]
    by_cases raised : input.startsWith "/../" = true
    · rw [if_pos raised]
      obtain ⟨rest, rfl⟩ := exists_of_startsWith raised
      have shorter : rest.length + 4 ≤ fuel + 1 := bounded
      refine ih ('/' :: rest) _ (by simp; omega) ?_ (.inr rfl)
      rw [← isLast]
      exact (lastSegment_append_cons [] rest).trans (lastSegment_append_cons ['/', '.', '.'] rest).symm
    rw [if_neg raised, if_neg (fun same => notParent (by rw [← isLast, same]; rfl))]
    have notDots : ¬ (input = (".":Text) || input = ("..":Text)) = true := by
      intro dots
      rcases Bool.or_eq_true_iff.mp dots with same | same
      · exact notHere (by rw [← isLast, of_decide_eq_true same]; rfl)
      · exact notParent (by rw [← isLast, of_decide_eq_true same]; rfl)
    rw [if_neg notDots]
    obtain ⟨first, others, rfl⟩ := List.exists_cons_of_ne_nil nonempty
    have parts := List.takeWhile_append_dropWhile (p := (· != '/')) (l := others)
    have stopped := List.head?_dropWhile_not (· != '/') others
    have shorter : others.length ≤ fuel := by simpa using bounded
    show lastSegment (removeDotSegmentsFrom fuel (others.dropWhile (· != '/'))
      (output ++ first :: others.takeWhile (· != '/'))) = name
    generalize others.takeWhile (· != '/') = segment at parts
    cases remaining : others.dropWhile (· != '/') with
    | nil =>
      rw [remaining, List.append_nil] at parts
      subst parts
      rw [removeDotSegmentsFrom_nil]
      rcases placed with rfl | slash
      · exact isLast
      · cases slash
        rw [lastSegment_append_cons, ← isLast]
        exact (lastSegment_append_cons [] segment).symm
    | cons slash rest =>
      rw [remaining] at parts stopped
      have isSlash : slash = '/' := by simpa using stopped
      subst isSlash
      subst parts
      refine ih ('/' :: rest) _ ?_ ?_ (.inr rfl)
      · simp at shorter ⊢
        omega
      · rw [← isLast]
        exact (lastSegment_append_cons [] rest).trans (lastSegment_append_cons (first :: segment) rest).symm

theorem lastSegment_removeDotSegments {path : Text} (isFile : lastSegment path ≠ []) (notHere : lastSegment path ≠ ".")
    (notParent : lastSegment path ≠ "..") : lastSegment (removeDotSegments path) = lastSegment path :=
  lastSegment_removeDotSegmentsFrom isFile notHere notParent path.length path [] (Nat.le_refl _) rfl (.inl rfl)

theorem lastSegment_mergePaths (base : SplitResult) (path : Text) : lastSegment (mergePaths base path) = lastSegment path := by
  unfold mergePaths
  split
  · exact lastSegment_append_cons [] path
  · split
    · exact lastSegment_append_cons _ path
    · rfl

/-- Whatever the base is, the resolution of a reference to a file ends in the name of that file. -/
theorem lastSegment_resolveReference (base : SplitResult) {reference : SplitResult}
    (isFile : lastSegment reference.path ≠ []) (notHere : lastSegment reference.path ≠ ".")
    (notParent : lastSegment reference.path ≠ "..") :
    lastSegment (resolveReference base reference).path = lastSegment reference.path := by
  have written : reference.path ≠ [] := by
    intro empty
    rw [empty] at isFile
    exact isFile rfl
  unfold resolveReference
  split
  · exact lastSegment_removeDotSegments isFile notHere notParent
  split
  · exact lastSegment_removeDotSegments isFile notHere notParent
  show lastSegment (removeDotSegments (if _ then _ else _)) = _
  split
  · exact lastSegment_removeDotSegments isFile notHere notParent
  · have same := lastSegment_mergePaths base reference.path
    rw [← same] at isFile notHere notParent ⊢
    exact lastSegment_removeDotSegments isFile notHere notParent

end Mcplica.Contracts
