/-
  DexWeave/Catalog.lean --- the transforms of a deployment.

  WHAT THIS FILE IS FOR.  A deployed application swaps its code or its resources in
  place by way of hooks in a handful of framework methods.  All hooks are static
  methods of one class, which comes with the payload.
-/
import DexWeave.Transform.Basic

set_option autoImplicit false

namespace DexWeave.Catalog

/-- The class that declares every hook. -/
def hooksClass : ClassName := ⟨"com/android/tools/deploy/instrument/InstrumentationHooks"⟩

/-- A hook by its name. -/
def hook (name : String) : HookRef := ⟨hooksClass, name⟩

/-- A class as a value type, by its name. -/
def objectType (name : String) : ValueType := .object ⟨name⟩

/-- The type of strings. -/
def stringType : ValueType := objectType "java/lang/String"

/-- Calls a hook on entry, with the receiver as a plain object. -/
def onEntry (target : MethodRef) (hookName : String) : Transform :=
  ⟨target, .entry true, hook hookName⟩

/-- Calls a hook before every exit. -/
def onExit (target : MethodRef) (hookName : String) : Transform :=
  ⟨target, .exit, hook hookName⟩

/-! ## Targets -/

/-- Makes the class loader of an application; its fourth parameter is the native search path. -/
def getClassLoader : MethodRef where
  owner := ⟨"android/app/ApplicationLoaders"⟩
  name := "getClassLoader"
  prototype :=
    ⟨[stringType, .primitive .int, .primitive .boolean, stringType, stringType,
      objectType "java/lang/ClassLoader", stringType, stringType, objectType "java/util/List"],
     .value (objectType "java/lang/ClassLoader")⟩

/-- Ends a thread by an exception that nothing caught. -/
def dispatchUncaughtException : MethodRef where
  owner := ⟨"java/lang/Thread"⟩
  name := "dispatchUncaughtException"
  prototype := ⟨[objectType "java/lang/Throwable"], .void⟩

/-- Cuts a class path into files. -/
def splitDexPath : MethodRef where
  owner := ⟨"dalvik/system/DexPathList"⟩
  name := "splitDexPath"
  prototype := ⟨[stringType], .value (objectType "java/util/List")⟩

/-- Hands out the resources of an application. -/
def getResources : MethodRef where
  owner := ⟨"android/app/LoadedApk"⟩
  name := "getResources"
  prototype := ⟨[], .value (objectType "android/content/res/Resources")⟩

/-- Takes over changed resource directories. -/
def applyNewResourceDirs : MethodRef where
  owner := ⟨"android/app/ResourcesManager"⟩
  name := "applyNewResourceDirsLocked"
  prototype :=
    ⟨[objectType "android/content/pm/ApplicationInfo", stringType.arrayOf 1], .void⟩

/-- Tells an application about changed packages. -/
def dispatchPackageBroadcast : MethodRef where
  owner := ⟨"android/app/ActivityThread"⟩
  name := "handleDispatchPackageBroadcast"
  prototype := ⟨[.primitive .int, stringType.arrayOf 1], .void⟩

/-- Looks up a resource in one element of a class path. -/
def findResource : MethodRef where
  owner := ⟨"dalvik/system/DexPathList$Element"⟩
  name := "findResource"
  prototype := ⟨[stringType], .value (objectType "java/net/URL")⟩

/-! ## Catalogs -/

/-- What it takes to swap resource overlays into a running application. -/
def overlaySwap : List Transform :=
  [⟨getClassLoader, .parameter 3, hook "modifyNativeSearchPath"⟩,
   onEntry dispatchUncaughtException "logUnhandledException",
   onExit splitDexPath "handleSplitDexPathExit",
   onExit getResources "addResourceOverlays",
   onEntry applyNewResourceDirs "addResourceOverlays"]

/-- What it takes to apply code changes to a running application. -/
def applyChanges : List Transform :=
  [onEntry dispatchPackageBroadcast "handleDispatchPackageBroadcastEntry",
   onExit dispatchPackageBroadcast "handleDispatchPackageBroadcastExit",
   onEntry findResource "handleFindResourceEntry"]

end DexWeave.Catalog
