import Upse.Bios.Allocator
import Upse.Bios.GuestMemory

/-!
# The module registry

Loaded modules and registered export libraries, with the list of module descriptors the guest sees.
A module's image and its descriptor are blocks of system memory; the descriptors are chained through
guest memory, newest first.
-/

namespace Upse

open ErrorState

/-- A byte string. -/
abbrev Name := List (BitVec 8)

/-- The size of a module's descriptor. -/
def moduleInfoSize : ℕ := 48
def maxModules : ℕ := 64
def maxLibraries : ℕ := 256

/-- Guest address of the word that holds the head of the module list. -/
def moduleHeadAddress : ℕ := 0x260

/-- First byte of the heap the loader places modules in, and its end. -/
def defaultHeapStart : ℕ := 0x00010000
/-- The end of the arena. -/
def defaultHeapEnd : ℕ := 0x00200000

/-- Guest-visible loadcore module state. -/
inductive ModuleState where
  | loaded
  | starting
  | resident
  | removable
  | stopping
  | stopped
  | stoppedRemovable
  | notResident
  deriving DecidableEq, Repr

/-- The state in the descriptor's new flags. -/
def ModuleState.newFlags : ModuleState → ℕ
  | .loaded => 1
  | .starting => 2
  | .resident => 3
  | .removable => 0x13
  | .stopping => 0x15
  | .stopped => 7
  | .stoppedRemovable => 0x17
  | .notResident => 6

/-- Runtime residency state a module entry point returns. -/
inductive ResidentState where
  | unstarted
  | resident
  | notResident
  | removable
  deriving DecidableEq, Repr

/-- The 48-byte `loadcore` module descriptor visible to IOP code. -/
structure ModuleInfo where
  next : ℕ
  name : ℕ
  version : ℕ
  newFlags : ℕ
  id : ℕ
  flags : ℕ
  entry : ℕ
  globalPointer : ℕ
  textStart : ℕ
  textSize : ℕ
  dataSize : ℕ
  bssSize : ℕ
  unused1 : ℕ
  unused2 : ℕ
  deriving DecidableEq, Repr

/-- The little-endian structure. -/
def ModuleInfo.encode (info : ModuleInfo) : List (BitVec 8) :=
  leBytes 4 info.next ++ (leBytes 4 info.name ++ (leBytes 2 info.version ++ (leBytes 2 info.newFlags
    ++ (leBytes 2 info.id ++ (leBytes 2 info.flags ++ (leBytes 4 info.entry ++
    (leBytes 4 info.globalPointer ++ (leBytes 4 info.textStart ++ (leBytes 4 info.textSize ++
    (leBytes 4 info.dataSize ++ (leBytes 4 info.bssSize ++ (leBytes 4 info.unused1 ++
    leBytes 4 info.unused2))))))))))))

/-- An export library as the loader finds it in an image. -/
structure ExportLibrary where
  name : Name
  version : ℕ
  mode : ℕ
  tableAddress : ℕ
  functions : List ℕ
  deriving DecidableEq, Repr

/-- Registered export library. -/
structure ExportRegistration where
  moduleId : ℕ
  name : Name
  version : ℕ
  mode : ℕ
  tableAddress : ℕ
  functions : List ℕ
  users : ℕ
  deriving DecidableEq, Repr

/-- Resolved export function and the registration which owns it. -/
structure ResolvedImport where
  libraryId : ℕ
  address : ℕ
  deriving DecidableEq, Repr

/-- Loaded module entry-point invocation. -/
structure ModuleInvocation where
  moduleId : ℕ
  entry : ℕ
  globalPointer : ℕ
  deriving DecidableEq, Repr

/-- Why an image was not loaded. -/
inductive IrxError where
  | invalidLoadAddress
  | targetRange
  | target
  | link
  deriving DecidableEq, Repr

/-- The forms of an IRX file. -/
inductive IrxVariant where
  | relocatableV1
  | relocatableV2
  | executable
  deriving DecidableEq, Repr

/-- A module relocated in staging memory, with the export libraries found in its image. -/
structure LinkedImage (size : ℕ) where
  image : Vector (BitVec 8) size
  entry : ℕ
  globalPointer : ℕ
  exports : List ExportLibrary

/-- A parsed module file.  Relocation and the discovery of its link tables happen in staging memory
and depend on the load address only. -/
structure IrxModule where
  name : Name
  version : ℕ
  variant : IrxVariant
  textSize : ℕ
  dataSize : ℕ
  bssSize : ℕ
  preferredAddress : ℕ
  alignment : ℕ
  imageSize : ℕ
  link : ℕ → Except IrxError (LinkedImage imageSize)

/-- One loaded IOP module and the blocks and libraries it owns. -/
structure ModuleRecord where
  id : ℕ
  name : Name
  version : ℕ
  state : ModuleState
  infoAddress : ℕ
  info : ModuleInfo
  metadataAllocation : Allocation
  imageAllocation : Allocation
  exportIds : List ℕ
  deriving DecidableEq, Repr

/-- Failure of a registry operation. -/
inductive ModuleError where
  | kernel (source : KernelError)
  | guestMemory (operation : String) (address size : ℕ)
  | irx (source : IrxError)
  | invalidState (message : String)
  deriving DecidableEq, Repr

/-- Fixed-capacity loadcore module and export-library registry. -/
structure ModuleRegistry where
  modules : FixedTable ModuleRecord maxModules 1
  libraries : FixedTable ExportRegistration maxLibraries 1
  head : ℕ

/-- The registry, the allocator and the guest memory its operations work on. -/
structure Loadcore where
  registry : ModuleRegistry
  memory : SystemMemory
  guest : GuestMemory

/-- Programs of the registry. -/
abbrev LoadcoreM := EStateM ModuleError Loadcore

/-! ### Names -/

/-- A printable byte other than a blank. -/
def isAsciiGraphic (byte : BitVec 8) : Bool := 0x21 ≤ byte.toNat && byte.toNat ≤ 0x7e

/-- Checks a module's name. -/
def validateModuleName (name : Name) : Except KernelError Unit :=
  if name.isEmpty ∨ 127 < name.length ∨
      name.any fun byte => byte == 0 || !(isAsciiGraphic byte || byte == 0x20) then
    .error .illegalObject
  else .ok ()

/-- Checks a library's name. -/
def validateLibraryName (name : Name) : Except KernelError Unit :=
  if name.isEmpty ∨ 8 < name.length ∨ !name.all isAsciiGraphic then .error .illegalLibrary
  else .ok ()

/-- Import linking compares only the major version. -/
def versionCompatible (provided required : ℕ) : Bool := provided / 256 == required / 256

namespace ModuleRegistry

/-- An empty registry. -/
def new : ModuleRegistry := ⟨.new, .new, 0⟩

/-- Finds a module by numeric identifier. -/
def get (registry : ModuleRegistry) (id : ℕ) : Option ModuleRecord := registry.modules.get id

/-- A registered export library. -/
def exported (registry : ModuleRegistry) (id : ℕ) : Option ExportRegistration :=
  registry.libraries.get id

/-- Each library, against the earlier ones and the registry. -/
def validateExportsLoop (registry : ModuleRegistry) (earlier : List ExportLibrary) :
    List ExportLibrary → Except KernelError Unit
  | [] => .ok ()
  | library :: rest => do
    validateLibraryName library.name
    if library.functions.isEmpty then .error .illegalLibrary
    else if registry.libraries.iter.any (fun entry => entry.2.name == library.name) ||
        earlier.any (fun other => other.name == library.name) then .error .libraryFound
    else registry.validateExportsLoop (earlier ++ [library]) rest

/-- Checks that the exports fit the registry. -/
def validateExports (registry : ModuleRegistry) (exports : List ExportLibrary) :
    Except KernelError Unit :=
  if registry.libraries.capacity - registry.libraries.len < exports.length then .error .noMemory
  else registry.validateExportsLoop [] exports

/-- Enters a library in the name of a module. -/
def insertExport (registry : ModuleRegistry) (moduleId : ℕ) (library : ExportLibrary) :
    Except KernelError (ℕ × ModuleRegistry) := do
  let (id, libraries) ← registry.libraries.insert
    ⟨moduleId, library.name, library.version, library.mode, library.tableAddress,
      library.functions, 0⟩
  return (id, { registry with libraries := libraries })

/-- Drops libraries by identifier; one that is not registered is skipped. -/
def removeExports (registry : ModuleRegistry) (ids : List ℕ) : ModuleRegistry :=
  { registry with
    libraries := ids.foldl (fun libraries id => (libraries.remove id).2) registry.libraries }

end ModuleRegistry

namespace Loadcore

/-! ### Components -/

/-- Changes the registry. -/
def modifyRegistry (f : ModuleRegistry → ModuleRegistry) : LoadcoreM Unit :=
  modify fun s => { s with registry := f s.registry }

/-- Runs a call of the system memory. -/
def onMemory {α : Type} (m : EStateM KernelError SystemMemory α) : LoadcoreM α :=
  zoom Loadcore.memory (fun memory s => { s with memory := memory }) .kernel m

/-- Runs an access of the guest's memory. -/
def onGuest {α : Type} (m : EStateM WriteError GuestMemory α) : LoadcoreM α :=
  zoom Loadcore.guest (fun guest s => { s with guest := guest })
    (fun e => match e with
      | .kernel source => .kernel source
      | .guestMemory operation address size => .guestMemory operation address size) m

/-- A kernel error as one of the loader. -/
def liftKernel {α : Type} (r : Except KernelError α) : LoadcoreM α :=
  ErrorState.ofExcept (r.mapError .kernel)

/-- Runs a program and, when it fails, another one before the failure is reported. -/
def orUndo {α : Type} (m : LoadcoreM α) (undo : LoadcoreM Unit) : LoadcoreM α := fun s =>
  match m.run s with
  | .ok a t => .ok a t
  | .error e t =>
    match undo.run t with
    | .ok _ u => .error e u
    | .error e' u => .error e' u

/-- Runs a program whose failure is ignored. -/
def ignore (m : LoadcoreM Unit) : LoadcoreM Unit := fun s => .ok () (leaves (m.run s))

/-- Gives a block back. -/
def free (address : ℕ) : LoadcoreM Unit := (fun _ => ()) <$> onMemory (SystemMemory.free address)

/-! ### Loading -/

/-- Relocates an image and writes it to its block. -/
def loadInto (irx : IrxModule) (image : Allocation) : LoadcoreM (LinkedImage irx.imageSize) := do
  let address := image.address
  throwIf (address % irx.alignment ≠ 0 ∨
      irx.variant = .executable ∧ address ≠ irx.preferredAddress) (.irx .invalidLoadAddress)
  throwIf (!(GuestRange.mk address (address + image.requestedSize)).contains address irx.imageSize)
    (.irx .targetRange)
  let linked ← ErrorState.ofExcept ((irx.link address).mapError .irx)
  throwIf (!(← get).guest.range.contains address irx.imageSize) (.irx .target)
  throwIf (!(← get).guest.accepts address irx.imageSize) (.irx .target)
  modify fun s => { s with guest := s.guest.store address linked.image.toList }
  return linked

/-- The descriptor of a module about to be published at the head of the list. -/
def newInfo (irx : IrxModule) (moduleId head nameAddress imageAddress entry globalPointer : ℕ) :
    ModuleInfo where
  next := head
  name := nameAddress
  version := irx.version
  newFlags := ModuleState.loaded.newFlags
  id := moduleId
  flags := 0
  entry := entry
  globalPointer := globalPointer
  textStart := imageAddress
  textSize := irx.textSize
  dataSize := irx.dataSize
  bssSize := irx.bssSize
  unused1 := 0
  unused2 := 0

/-- Writes the descriptor and the name, and makes the descriptor the head of the list. -/
def publish (irx : IrxModule) (metadata : ℕ) (info : ModuleInfo) : LoadcoreM Unit := do
  onGuest (GuestMemory.writeGuest metadata info.encode)
  onGuest (GuestMemory.writeGuest (metadata + moduleInfoSize) (irx.name ++ [0]))
  onGuest (GuestMemory.writeU32 moduleHeadAddress metadata)

/-- Registers the libraries of a module, or none of them. -/
def insertExports (moduleId : ℕ) : List ExportLibrary → List ℕ → LoadcoreM (List ℕ)
  | [], ids => return ids
  | library :: rest, ids => do
    match (← get).registry.insertExport moduleId library with
    | .ok (id, registry) =>
      modifyRegistry fun _ => registry
      insertExports moduleId rest (ids ++ [id])
    | .error e =>
      modifyRegistry (·.removeExports ids)
      throw (.kernel e)

/-- Writes the registry's head to the guest again, whether or not the guest takes it. -/
def restoreHead : LoadcoreM Unit := do
  let head := (← get).registry.head
  ignore (onGuest (GuestMemory.writeU32 moduleHeadAddress head))

/-- Enters the record of a module, or drops the libraries that name it. -/
def insertRecord (moduleId : ℕ) (record : ModuleRecord) : LoadcoreM Unit := do
  match (← get).registry.modules.insertAt moduleId record with
  | .ok modules => modifyRegistry fun registry => { registry with modules := modules }
  | .error e =>
    modifyRegistry fun registry => registry.removeExports
      (registry.libraries.iter.filterMap fun entry =>
        if entry.2.moduleId = moduleId then some entry.1 else none)
    throw (.kernel e)

/-- Relocates a module into system memory and publishes its descriptor.  Every failure gives the
blocks and the table entries back. -/
def load (irx : IrxModule) : LoadcoreM ℕ := do
  let moduleId ← okOr (← get).registry.modules.nextId (.kernel .noMemory)
  throwIf (2 ^ 16 ≤ moduleId) (.kernel .noMemory)
  liftKernel (validateModuleName irx.name)
  let nameSize ← okOr (checkedAdd 32 irx.name.length 1) (.kernel .illegalSize)
  let metadataSize ← okOr (checkedAdd 32 moduleInfoSize nameSize) (.kernel .illegalSize)
  let metadata ← onMemory (SystemMemory.allocate .first metadataSize 0)
  let mode := if irx.variant = .executable then AllocationMode.address else .first
  let imageAddress := if mode = .address then irx.preferredAddress else 0
  let image ← orUndo (onMemory (SystemMemory.allocateAligned mode irx.imageSize imageAddress
    (max irx.alignment sysmemQuantum))) (free metadata.address)
  let undo := do
    free image.address
    free metadata.address
  let linked ← orUndo (loadInto irx image) undo
  orUndo (liftKernel ((← get).registry.validateExports linked.exports)) undo
  let head := (← get).registry.head
  let info := newInfo irx moduleId head (metadata.address + moduleInfoSize) image.address linked.entry
    linked.globalPointer
  orUndo (publish irx metadata.address info) undo
  let exportIds ← orUndo (insertExports moduleId linked.exports []) (do restoreHead; undo)
  orUndo (insertRecord moduleId ⟨moduleId, irx.name, irx.version, .loaded, metadata.address, info,
    metadata, image, exportIds⟩) (do restoreHead; undo)
  modifyRegistry fun registry => { registry with head := metadata.address }
  return moduleId

/-! ### Starting and stopping -/

/-- Changes the state of a module, in the guest's descriptor first. -/
def setState (id : ℕ) (state : ModuleState) : LoadcoreM Unit := do
  let record ← okOr ((← get).registry.get id) (.kernel .unknownModule)
  onGuest (GuestMemory.writeU16 (record.infoAddress + 10) state.newFlags)
  modifyRegistry fun registry => { registry with
    modules := registry.modules.modify id fun record =>
      { record with state := state, info := { record.info with newFlags := state.newFlags } } }

/-- Why a module cannot be started. -/
def ModuleState.startError : ModuleState → Option KernelError
  | .loaded | .stopped | .stoppedRemovable => none
  | .notResident => some .notRemovable
  | .starting | .resident | .removable | .stopping => some .alreadyStarted

/-- Why a module cannot be stopped. -/
def ModuleState.stopError : ModuleState → Option KernelError
  | .removable => none
  | .resident => some .notRemovable
  | .loaded | .notResident => some .notStarted
  | .starting => some .cannotStop
  | .stopping => some .alreadyStopping
  | .stopped | .stoppedRemovable => some .alreadyStopped

/-- Why a module cannot be unloaded. -/
def ModuleState.unloadError : ModuleState → Option KernelError
  | .loaded | .notResident | .stoppedRemovable => none
  | .stopped => some .notRemovable
  | .starting | .resident | .removable | .stopping => some .notStopped

/-- Fails with an error code, if there is one. -/
def guard (error : Option KernelError) : LoadcoreM Unit :=
  match error with
  | none => return ()
  | some e => throw (.kernel e)

/-- Enters a state from which a module entry is invoked. -/
def begin (error : ModuleState → Option KernelError) (state : ModuleState) (id : ℕ) :
    LoadcoreM ModuleInvocation := do
  let record ← okOr ((← get).registry.get id) (.kernel .unknownModule)
  guard (error record.state)
  setState id state
  return ⟨id, record.info.entry, record.info.globalPointer⟩

/-- Begins a module start entry. -/
def beginStart (id : ℕ) : LoadcoreM ModuleInvocation := begin ModuleState.startError .starting id

/-- Completes a module entry with its resident return code. -/
def completeStart (id : ℕ) (result : ResidentState) : LoadcoreM ModuleState := do
  let record ← okOr ((← get).registry.get id) (.kernel .unknownModule)
  throwIf (record.state ≠ .starting) (.kernel .notStarted)
  match result with
  | .unstarted => throw (.invalidState "module returned no resident result")
  | .resident =>
    setState id .resident
    return .resident
  | .notResident =>
    setState id .notResident
    return .notResident
  | .removable =>
    setState id .removable
    return .removable

/-- Begins the stop entry of a removable module. -/
def beginStop (id : ℕ) : LoadcoreM ModuleInvocation := begin ModuleState.stopError .stopping id

/-- Completes a stop entry; a nonzero result restores removable residency. -/
def completeStop (id : ℕ) (result : ℤ) : LoadcoreM ModuleState := do
  let record ← okOr ((← get).registry.get id) (.kernel .unknownModule)
  throwIf (record.state ≠ .stopping) (.kernel .cannotStop)
  let state := if result = 0 then ModuleState.stoppedRemovable else .removable
  setState id state
  return state

/-! ### Unloading -/

/-- The module whose descriptor precedes an address in the list. -/
def predecessor (registry : ModuleRegistry) (id address : ℕ) : Option (ℕ × ModuleRecord) :=
  registry.modules.iter.find? fun entry => entry.1 ≠ id ∧ entry.2.info.next = address

/-- Takes a descriptor out of the list, in guest memory first. -/
def unlink (id address next : ℕ) : LoadcoreM Unit := do
  match predecessor (← get).registry id address with
  | some (other, record) =>
    onGuest (GuestMemory.writeU32 record.infoAddress next)
    modifyRegistry fun registry => { registry with
      modules := registry.modules.modify other fun record =>
        { record with info := { record.info with next := next } } }
  | none =>
    throwIf ((← get).registry.head ≠ address) (.invalidState "module is absent from guest list")
    onGuest (GuestMemory.writeU32 moduleHeadAddress next)
    modifyRegistry fun registry => { registry with head := next }

/-- Unlinks a module that is not running and frees both of its blocks. -/
def unload (id : ℕ) : LoadcoreM ModuleRecord := do
  let s ← get
  let record ← okOr (s.registry.get id) (.kernel .unknownModule)
  guard (ModuleState.unloadError record.state)
  throwIf (record.exportIds.any fun exportId =>
    (s.registry.exported exportId).any fun library => library.users != 0) (.kernel .libraryInUse)
  throwIf ((s.memory.block record.metadataAllocation.address).isNone ∨
    (s.memory.block record.imageAllocation.address).isNone)
    (.invalidState "module allocation is missing")
  unlink id record.infoAddress record.info.next
  let registry := (← get).registry
  modifyRegistry fun _ => { registry with modules := (registry.modules.remove id).2 }
  let removed ← okOr (registry.modules.remove id).1
    (.invalidState "module disappeared during unload")
  modifyRegistry (·.removeExports removed.exportIds)
  free removed.imageAllocation.address
  free removed.metadataAllocation.address
  return removed

/-! ### Libraries -/

/-- Registers a validated export library. -/
def registerExport (moduleId : ℕ) (library : ExportLibrary) : LoadcoreM ℕ := do
  liftKernel ((← get).registry.validateExports [library])
  let (id, registry) ← liftKernel ((← get).registry.insertExport moduleId library)
  modifyRegistry fun _ => registry
  return id

/-- Releases an export library that has no acquired users. -/
def releaseExport (id : ℕ) : LoadcoreM ExportRegistration := do
  let registry := (← get).registry
  let library ← okOr (registry.exported id) (.kernel .libraryNotFound)
  throwIf (library.users ≠ 0) (.kernel .libraryInUse)
  modifyRegistry fun _ => { registry with libraries := (registry.libraries.remove id).2 }
  okOr (registry.libraries.remove id).1 (.kernel .libraryNotFound)

/-- Resolves and acquires a compatible named export ordinal. -/
def bindImport (name : Name) (requiredVersion ordinal : ℕ) : LoadcoreM ResolvedImport := do
  liftKernel (validateLibraryName name)
  let registry := (← get).registry
  let (id, library) ← okOr (registry.libraries.iter.find? fun entry =>
    entry.2.name = name ∧ versionCompatible entry.2.version requiredVersion)
    (.kernel .libraryNotFound)
  let address ← okOr ((library.functions[ordinal]?).filter (· != 0)) (.kernel .illegalLibrary)
  let users ← okOr (checkedAdd 32 library.users 1) (.kernel .noMemory)
  modifyRegistry fun _ => { registry with
    libraries := registry.libraries.modify id fun library => { library with users := users } }
  return ⟨id, address⟩

/-- Releases one acquired import binding. -/
def unbindImport (libraryId : ℕ) : LoadcoreM Unit := do
  let registry := (← get).registry
  let library ← okOr (registry.exported libraryId) (.kernel .libraryNotFound)
  let users ← okOr (checkedSub library.users 1) (.kernel .illegalLibrary)
  modifyRegistry fun _ => { registry with
    libraries := registry.libraries.modify libraryId fun library => { library with users := users } }

/-! ### Runs -/

/-- An operation of the registry. -/
inductive Op where
  | load (irx : IrxModule)
  | beginStart (id : ℕ)
  | completeStart (id : ℕ) (result : ResidentState)
  | beginStop (id : ℕ)
  | completeStop (id : ℕ) (result : ℤ)
  | unload (id : ℕ)
  | registerExport (moduleId : ℕ) (library : ExportLibrary)
  | releaseExport (id : ℕ)
  | bindImport (name : Name) (requiredVersion ordinal : ℕ)
  | unbindImport (libraryId : ℕ)

/-- Runs one operation. -/
def Op.perform : Op → LoadcoreM Unit
  | .load irx => (fun _ => ()) <$> Loadcore.load irx
  | .beginStart id => (fun _ => ()) <$> Loadcore.beginStart id
  | .completeStart id result => (fun _ => ()) <$> Loadcore.completeStart id result
  | .beginStop id => (fun _ => ()) <$> Loadcore.beginStop id
  | .completeStop id result => (fun _ => ()) <$> Loadcore.completeStop id result
  | .unload id => (fun _ => ()) <$> Loadcore.unload id
  | .registerExport moduleId library => (fun _ => ()) <$> Loadcore.registerExport moduleId library
  | .releaseExport id => (fun _ => ()) <$> Loadcore.releaseExport id
  | .bindImport name requiredVersion ordinal =>
    (fun _ => ()) <$> Loadcore.bindImport name requiredVersion ordinal
  | .unbindImport libraryId => Loadcore.unbindImport libraryId

/-- One operation leaves this state, whether it returned or failed. -/
def Next (s : Loadcore) (op : Op) (t : Loadcore) : Prop := leaves (op.perform.run s) = t

end Loadcore

end Upse
