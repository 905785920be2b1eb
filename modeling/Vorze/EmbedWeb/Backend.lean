import Vorze.ConfigLoader
import Vorze.EmbedWeb.AllowList
import Vorze.EmbedWeb.Head
import Vorze.Foundation.JsonReading

/-! # The backend description

`GET /backend` answers with a text that the configuration was formatted into. The
host is put between quotes as it is, so what has a meaning in a JSON string
changes the document.
-/

namespace Vorze.EmbedWeb

open ConfigLoader Json

/-- The server as it is started from the configuration. -/
def sessionConfigOf (config : EmbedWebServerConfig) : SessionConfig where
  docRoot := config.rootPath
  indexFileOfRoot := config.indexFileOfRoot
  allowFileExtList := allowFileExtListOf (some config.allowFileExtList)
  backendJsonString := config.backendJsonString

/-- The answer to `GET /backend` is a JSON object with the host and the port. -/
def DescribesBackend (config : Config) (host : Bytes) (port : UInt16) : Prop :=
  ∀ (fs : WindowsFiles) (req : Request), req.method = .get → req.target = text "/backend" →
    ∃ fields,
      parse (respond fs (sessionConfigOf config.embedWebServerConfig) req).body =
        some (.object fields) ∧
      Has fields (text "host") (.string host) ∧
      Has fields (text "port") (.number (decimal port.toNat))

theorem body_respond_backend {fs : WindowsFiles} {config : SessionConfig} {req : Request}
    (hmethod : req.method = .get) (htarget : req.target = text "/backend") :
    (respond fs config req).body = config.backendJsonString := by
  rw [respond, if_pos ⟨hmethod, htarget⟩]
  rfl

/-! ## A host that needs no escapes -/

/-- The two members of the document. -/
def backendFields (host : Bytes) (port : UInt16) : List (Bytes × Json) :=
  [(text "host", .string host), (text "port", .number (decimal port.toNat))]

theorem nodup_backendFields (host : Bytes) (port : UInt16) :
    ((backendFields host port).map Prod.fst).Nodup := by
  have hnodup : [text "host", text "port"].Nodup := by decide
  exact hnodup

theorem isString_host : IsString (text "host") (text "host") :=
  isString_plain (List.all_eq_true.mp (by decide))

theorem isString_port : IsString (text "port") (text "port") :=
  isString_plain (List.all_eq_true.mp (by decide))

theorem endsDigits_of_follows {b : UInt8} (h : Follows (ch '\x7d') b) : endsDigits b = true := by
  rcases h with rfl | hspace | rfl
  · decide
  · simp only [isSpace, Bool.or_eq_true, beq_iff_eq] at hspace
    rcases hspace with ((rfl | rfl) | rfl) | rfl <;> decide
  · decide

/-- The text after the opening brace. -/
def backendMembers (host : Bytes) (port : UInt16) : Bytes :=
  [ch '"'] ++ text "host" ++ [ch '"', ch ':'] ++
    (ch '"' :: (host ++ ch '"' :: (text ",\"port\":" ++ decimal port.toNat ++ [ch '\x7d'])))

theorem backendJsonString_eq (host : Bytes) (port : UInt16) :
    backendJsonString host port = ch '\x7b' :: backendMembers host port := by
  have hopen : text "\x7b\"host\":\"" =
      ch '\x7b' :: ([ch '"'] ++ text "host" ++ [ch '"', ch ':'] ++ [ch '"']) := rfl
  have hmiddle : text "\",\"port\":" = ch '"' :: text ",\"port\":" := rfl
  have hclose : text "\x7d" = [ch '\x7d'] := rfl
  rw [backendJsonString, backendMembers, hopen, hmiddle, hclose]
  simp only [List.append_assoc, List.cons_append, List.nil_append]

/-- The two members as they are written, with what they are. -/
def writtenMembers (host : Bytes) (port : UInt16) : List (Bytes × Bytes × Json) :=
  [([ch '"'] ++ text "host" ++ [ch '"', ch ':'] ++ ([ch '"'] ++ host ++ [ch '"']),
      (text "host", .string host)),
    ([ch '"'] ++ text "port" ++ [ch '"', ch ':'] ++ decimal port.toNat,
      (text "port", .number (decimal port.toNat)))]

theorem isItem_writtenMembers {host : Bytes} (hhost : ∀ b ∈ host, isPlain b = true)
    (port : UInt16) (bound : Nat) :
    ∀ w ∈ writtenMembers host port,
      IsItem (readMember (readValue (bound + 1))) (ch '\x7d') w.1 w.2 := by
  have hnone : ∀ b ∈ ([] : Bytes), isSpace b = true := by simp
  refine List.forall_mem_cons.mpr ⟨?_, List.forall_mem_singleton.mpr ?_⟩
  · apply isItem_readMember hnone isString_host
    intro b rest _
    exact readValue_string (isString_plain hhost) bound (b :: rest)
  · apply isItem_readMember hnone isString_port
    intro b rest hb
    exact readValue_decimal port.toNat (endsDigits_of_follows hb) bound rest

theorem listOf_backendMembers {host : Bytes} (hhost : ∀ b ∈ host, isPlain b = true)
    (port : UInt16) (bound : Nat) :
    listOf (readMember (readValue (bound + 2))) (ch '\x7d') (bound + 2)
      (backendMembers host port) = some (backendFields host port, []) := by
  have hwritten : backendMembers host port =
      [ch ','].intercalate ((writtenMembers host port).map Prod.fst) ++ [] ++ [ch '\x7d'] := by
    have hcomma : text ",\"port\":" = ch ',' :: ([ch '"'] ++ text "port" ++ [ch '"', ch ':']) :=
      rfl
    rw [backendMembers, hcomma]
    simp [writtenMembers]
  rw [hwritten]
  exact listOf_intercalate (by decide) (by decide) (isItem_writtenMembers hhost port (bound + 1))
    (by simp) [] (Nat.le_add_left 2 bound)

theorem parse_backendJsonString {host : Bytes} (hhost : ∀ b ∈ host, isPlain b = true)
    (port : UInt16) : parse (backendJsonString host port) = some (.object (backendFields host port)) := by
  obtain ⟨bound, hbound⟩ : ∃ bound, (backendJsonString host port).length = bound + 2 := by
    refine ⟨(backendJsonString host port).length - 2, ?_⟩
    have hopen : (text "\x7b\"host\":\"").length = 9 := rfl
    simp only [backendJsonString, List.length_append, hopen]
    omega
  rw [parse, hbound, backendJsonString_eq, readValue_brace, listOf_backendMembers hhost]
  rfl

/-! ## Any host -/

/-- The quotes after the closing one of the host are those of the next key. -/
theorem head?_after_quote {port : UInt16} {front rest : Bytes}
    (h : text ",\"port\":" ++ decimal port.toNat ++ [ch '\x7d'] = front ++ ch '"' :: rest) :
    rest.head? = some (ch 'p') ∨ rest.head? = some (ch ':') := by
  have hcomma : ch '"' ∉ text "," := by decide
  have hport : ch '"' ∉ text "port" := by decide
  have hnumber : ch '"' ∉ ch ':' :: decimal port.toNat ++ [ch '\x7d'] := by
    intro hmem
    rcases List.mem_append.mp hmem with hmem | hmem
    · rcases List.mem_cons.mp hmem with heq | hmem
      · exact absurd heq (by decide)
      · exact absurd (isDigit_of_mem_decimal hmem) (by decide)
    · exact absurd hmem (by decide)
  have htext : text ",\"port\":" ++ decimal port.toNat ++ [ch '\x7d'] = text "," ++
      ch '"' :: (text "port" ++ ch '"' :: (ch ':' :: decimal port.toNat ++ [ch '\x7d'])) := rfl
  rw [htext] at h
  rcases Words.append_cons_eq_cases h with ⟨-, rfl⟩ | ⟨middle, -, hmiddle⟩ | ⟨middle, hpre, -⟩
  · exact Or.inl rfl
  · rcases Words.append_cons_eq_cases hmiddle with ⟨-, rfl⟩ | ⟨last, -, hlast⟩ | ⟨last, hpre, -⟩
    · exact Or.inr rfl
    · exact absurd (hlast ▸ List.mem_append_right last List.mem_cons_self) hnumber
    · exact absurd (hpre ▸ List.mem_append_right middle List.mem_cons_self) hport
  · exact absurd (hpre ▸ List.mem_append_right front List.mem_cons_self) hcomma

/-- A document with a host begins with a string that is the host. -/
theorem chars_of_parse {host : Bytes} {port : UInt16} {fields : List (Bytes × Json)}
    (hparse : parse (backendJsonString host port) = some (.object fields))
    (hhas : Has fields (text "host") (.string host)) :
    ∃ bound rest b tail, chars bound
        (host ++ ch '"' :: (text ",\"port\":" ++ decimal port.toNat ++ [ch '\x7d'])) =
      some (host, rest) ∧ skipSpaces rest = b :: tail ∧ (b = ch '\x7d' ∨ b = ch ',') := by
  unfold parse at hparse
  split at hparse
  next json rest hread =>
    rw [Option.ite_none_right_eq_some, Option.some.injEq] at hparse
    obtain ⟨-, rfl⟩ := hparse
    rw [backendJsonString_eq, readValue_brace] at hread
    obtain ⟨⟨members, rest'⟩, hlist, hobject⟩ := Option.map_eq_some_iff.mp hread
    obtain ⟨rfl, -⟩ : members = fields ∧ rest' = rest := by simpa using hobject
    have hitems : items (readMember (readValue (ch '\x7b' :: backendMembers host port).length))
        (ch '\x7d') (ch '\x7b' :: backendMembers host port).length (backendMembers host port) =
          some (members, rest') := hlist
    obtain ⟨x, after, b, tail, more, hmember, hskip, hb, rfl⟩ := exists_head_items hitems
    rw [backendMembers, readMember_eq isString_host] at hmember
    obtain ⟨⟨json, after'⟩, hvalue, hx⟩ := Option.map_eq_some_iff.mp hmember
    obtain ⟨rfl, rfl⟩ : (text "host", json) = x ∧ after' = after := by simpa using hx
    rw [List.length_cons, readValue_quote] at hvalue
    obtain ⟨⟨s, after⟩, hstring, hjson⟩ := Option.map_eq_some_iff.mp hvalue
    obtain ⟨rfl, rfl⟩ : .string s = json ∧ after = after' := by simpa using hjson
    have hs := hhas.2 _ List.mem_cons_self
    rw [Json.string.injEq] at hs
    rw [hs] at hstring
    exact ⟨_, after, b, tail, hstring, hskip, hb⟩
  next => cases hparse

/-- If the document has the host, nothing in the host had to be escaped. -/
theorem isPlain_of_parse {host : Bytes} {port : UInt16} {fields : List (Bytes × Json)}
    (hparse : parse (backendJsonString host port) = some (.object fields))
    (hhas : Has fields (text "host") (.string host)) : ∀ b ∈ host, isPlain b = true := by
  obtain ⟨bound, rest, b, tail, hchars, hskip, hb⟩ := chars_of_parse hparse hhas
  obtain ⟨written, hwritten, ⟨-, hplain⟩ | hlonger⟩ := chars_sound hchars
  · exact hplain
  · -- the string goes past the quote that was meant to close it
    have hafter : ∃ front, text ",\"port\":" ++ decimal port.toNat ++ [ch '\x7d'] =
        front ++ ch '"' :: rest := by
      rcases Words.append_cons_eq_cases hwritten with ⟨rfl, -⟩ | ⟨front, -, hfront⟩ | ⟨front, hhost, -⟩
      · exact absurd hlonger (Nat.lt_irrefl _)
      · exact ⟨front, hfront⟩
      · rw [hhost, List.length_append] at hlonger
        omega
    obtain ⟨front, hfront⟩ := hafter
    have hnext : ∃ c, rest.head? = some c ∧ isSpace c = false ∧ c ≠ ch '\x7d' ∧ c ≠ ch ',' := by
      rcases head?_after_quote hfront with hhead | hhead
      · exact ⟨ch 'p', hhead, by decide⟩
      · exact ⟨ch ':', hhead, by decide⟩
    obtain ⟨c, hhead, hspace, hclose, hcomma⟩ := hnext
    obtain ⟨more, rfl⟩ := List.head?_eq_some_iff.mp hhead
    rw [skipSpaces_cons hspace] at hskip
    rw [← (List.cons.inj hskip).1] at hb
    exact absurd hb (not_or.mpr ⟨hclose, hcomma⟩)

/-- What the server sends is the text that was made when the configuration was loaded. -/
theorem body_respond_parseJson {read : Translators} {tree pts : PropertyTree}
    (h : Enables read tree pts) (fs : WindowsFiles) {req : Request} (hmethod : req.method = .get)
    (htarget : req.target = text "/backend") :
    (respond fs (sessionConfigOf (parseJson read tree).embedWebServerConfig) req).body =
      backendJsonString (hostOf pts) (portOf read tree pts) :=
  (body_respond_backend hmethod htarget).trans (backendJsonString_parseJson h)

/-- The backend is described exactly when no character of its host has to be escaped. -/
theorem describesBackend_iff (read : Translators) (tree pts : PropertyTree)
    (h : Enables read tree pts) :
    DescribesBackend (parseJson read tree) (hostOf pts) (portOf read tree pts) ↔
      ∀ b ∈ hostOf pts, isPlain b = true := by
  constructor
  · intro hdescribes
    obtain ⟨fields, hparse, hhost, -⟩ := hdescribes noFiles { target := text "/backend" } rfl rfl
    rw [body_respond_parseJson h noFiles rfl rfl] at hparse
    exact isPlain_of_parse hparse hhost
  · intro hhost fs req hmethod htarget
    rw [body_respond_parseJson h fs hmethod htarget]
    have hnodup := nodup_backendFields (hostOf pts) (portOf read tree pts)
    refine ⟨_, parse_backendJsonString hhost (portOf read tree pts), ?_, ?_⟩
    · rw [has_iff hnodup List.mem_cons_self]
    · rw [has_iff hnodup (List.mem_cons_of_mem _ List.mem_cons_self)]

/-! ## A host with a quote -/

/-- The words that a stream reads as a flag; no number is set. -/
def plainTranslators : Translators where
  port _ := none
  size _ := none
  flag data := if data = text "true" then some true else if data = text "false" then some false
    else none

/-- The values of an enabled server with the backend host. -/
def enabledSection (host : Bytes) : PropertyTree :=
  .node [] [(text "enable", .node (text "true") []), (text "backendHost", .node host [])]

/-- A configuration of these values only. -/
def enabledTree (host : Bytes) : PropertyTree :=
  .node [] [(text "EmbedWebServerConfig", enabledSection host)]

theorem describesBackend_localhost :
    DescribesBackend (parseJson plainTranslators (enabledTree (text "localhost")))
      (text "localhost") 5010 :=
  (describesBackend_iff plainTranslators (enabledTree (text "localhost"))
    (enabledSection (text "localhost")) ⟨rfl, rfl⟩).mpr (List.all_eq_true.mp (by decide))

/-- With a quote in the host, the document is no JSON text. -/
theorem not_describesBackend_quote :
    Enables plainTranslators (enabledTree (text "a\"b")) (enabledSection (text "a\"b")) ∧
      ¬DescribesBackend (parseJson plainTranslators (enabledTree (text "a\"b")))
        (text "a\"b") 5010 := by
  refine ⟨⟨rfl, rfl⟩, ?_⟩
  intro h
  obtain ⟨fields, hparse, -⟩ := h noFiles { target := text "/backend" } rfl rfl
  have hnone : parse (respond noFiles (sessionConfigOf
      (parseJson plainTranslators (enabledTree (text "a\"b"))).embedWebServerConfig)
        { target := text "/backend" }).body = none := by rfl
  rw [hnone] at hparse
  cases hparse

end Vorze.EmbedWeb
