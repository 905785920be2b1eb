import Vorze.Foundation.JsonText
import Vorze.Web.Control

/-! # The lists of the status document

A list is written as a node with a child for each entry. Without entries the node
has no children, and the writer makes it an empty string.
-/

namespace Vorze

namespace PropertyTree

theorem foldl_pushBack {α : Type} (f : α → PropertyTree) (xs : List α) (tree : PropertyTree) :
    xs.foldl (fun tree a => tree.pushBack [] (f a)) tree =
      node tree.data (tree.children ++ xs.map fun a => ([], f a)) := by
  induction xs generalizing tree with
  | nil =>
      cases tree
      simp [data, children]
  | cons x xs ih =>
      rw [List.foldl_cons, ih, pushBack]
      simp [data, children]

/-- A list without entries is a string, any other one an array. -/
theorem toJson_list {α : Type} (f : α → PropertyTree) (xs : List α) :
    (xs.foldl (fun tree a => tree.pushBack [] (f a)) empty).toJson =
      if xs = [] then .string [] else .array (xs.map fun a => (f a).toJson) := by
  rw [foldl_pushBack]
  cases xs with
  | nil => rfl
  | cons x xs => simp [empty, children, toJson, members_eq_map]

end PropertyTree

namespace HttpConnectSession

open PropertyTree

/-- An object with the two names of a port. -/
def DescribesPort (json : Json) (info : SerialPortNameInfo) : Prop :=
  ∃ fields, json = .object fields ∧
    Json.Has fields (text "comName") (.string info.comName) ∧
    Json.Has fields (text "userFriendlyName") (.string info.userFriendlyName)

/-- The document has the ports and the names of the open ones in two arrays. -/
def EncodesLists (server : SerialPortControlServer) : Prop :=
  ∃ fields ports, Json.parse (createJsonString server) = some (.object fields) ∧
    Json.Has fields (text "portsInfo") (.array ports) ∧
    List.Forall₂ DescribesPort ports server.portsInfo ∧
    Json.Has fields (text "OpenPorts") (.array (server.listOpenPortsName.map .string))

def portFields (info : SerialPortNameInfo) : List (Bytes × Json) :=
  [(text "comName", .string info.comName), (text "userFriendlyName", .string info.userFriendlyName)]

theorem nodup_portFields (info : SerialPortNameInfo) : ((portFields info).map Prod.fst).Nodup := by
  have hnodup : [text "comName", text "userFriendlyName"].Nodup := by decide
  exact hnodup

/-- The value of one port. -/
def portJson (info : SerialPortNameInfo) : Json := .object (portFields info)

theorem describesPort_portJson (info : SerialPortNameInfo) : DescribesPort (portJson info) info := by
  have hnodup := nodup_portFields info
  refine ⟨portFields info, rfl, ?_, ?_⟩
  · rw [Json.has_iff hnodup List.mem_cons_self]
  · rw [Json.has_iff hnodup (List.mem_cons_of_mem _ List.mem_cons_self)]

theorem toJson_portsInfoTree (ports : List SerialPortNameInfo) :
    (portsInfoTree ports).toJson =
      if ports = [] then .string [] else .array (ports.map portJson) := by
  rw [portsInfoTree, toJson_list]
  rfl

theorem toJson_openPortsTree (names : List Bytes) :
    (openPortsTree names).toJson =
      if names = [] then .string [] else .array (names.map .string) := by
  rw [openPortsTree, toJson_list]
  rfl

/-- The three parts of the document. -/
def statusFields (server : SerialPortControlServer) : List (Bytes × Json) :=
  [(text "config", (configTree server.config).toJson),
    (text "portsInfo", (portsInfoTree server.portsInfo).toJson),
    (text "OpenPorts", (openPortsTree server.listOpenPortsName).toJson)]

theorem parse_createJsonString (server : SerialPortControlServer) :
    Json.parse (createJsonString server) = some (.object (statusFields server)) :=
  parse_writeJson _

theorem nodup_statusFields (server : SerialPortControlServer) :
    ((statusFields server).map Prod.fst).Nodup := by
  have hnodup : [text "config", text "portsInfo", text "OpenPorts"].Nodup := by decide
  exact hnodup

theorem has_portsInfo_iff {server : SerialPortControlServer} {json : Json} :
    Json.Has (statusFields server) (text "portsInfo") json ↔
      json = (portsInfoTree server.portsInfo).toJson :=
  Json.has_iff (nodup_statusFields server) (by simp [statusFields])

theorem has_openPorts_iff {server : SerialPortControlServer} {json : Json} :
    Json.Has (statusFields server) (text "OpenPorts") json ↔
      json = (openPortsTree server.listOpenPortsName).toJson :=
  Json.has_iff (nodup_statusFields server) (by simp [statusFields])

theorem listOpenPortsName_eq_nil_iff (server : SerialPortControlServer) :
    server.listOpenPortsName = [] ↔ server.sessions = [] := by
  rw [SerialPortControlServer.listOpenPortsName, List.map_eq_nil_iff]

/-- The document has both lists as arrays exactly when there is a port and a session. -/
theorem encodesLists_iff (server : SerialPortControlServer) :
    EncodesLists server ↔ server.portsInfo ≠ [] ∧ server.sessions ≠ [] := by
  rw [ne_eq server.sessions, ← listOpenPortsName_eq_nil_iff]
  simp only [EncodesLists, parse_createJsonString, Option.some.injEq, Json.object.injEq]
  constructor
  · rintro ⟨fields, ports, rfl, hports, -, hopen⟩
    rw [has_portsInfo_iff, toJson_portsInfoTree] at hports
    rw [has_openPorts_iff, toJson_openPortsTree] at hopen
    constructor
    · intro hnil
      rw [if_pos hnil] at hports
      cases hports
    · intro hnil
      rw [if_pos hnil] at hopen
      cases hopen
  · rintro ⟨hports, hopen⟩
    refine ⟨statusFields server, server.portsInfo.map portJson, rfl, ?_, ?_, ?_⟩
    · rw [has_portsInfo_iff, toJson_portsInfoTree, if_neg hports]
    · rw [List.forall₂_map_left_iff, List.forall₂_same]
      exact fun info _ => describesPort_portJson info
    · rw [has_openPorts_iff, toJson_openPortsTree, if_neg hopen]

/-- Before a port is known, both lists are written as empty strings. -/
theorem not_encodesLists_empty : ¬EncodesLists {} := by
  rintro ⟨fields, ports, hparse, hports, -, -⟩
  rw [parse_createJsonString, Option.some.injEq, Json.object.injEq] at hparse
  subst hparse
  rw [has_portsInfo_iff] at hports
  cases hports

end HttpConnectSession

end Vorze
