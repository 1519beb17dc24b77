import RustHouse.SnapshotRleSound
import RustHouse.AggregateBudget
import RustHouse.ChecksumSound
import RustHouse.HttpListenerSound
import RustHouse.RegistryManifestSound
import RustHouse.SnapshotFileSound
import RustHouse.InsertColumns
import RustHouse.CsvRecords
import RustHouse.EquiJoin
import RustHouse.OneColumnSound
import RustHouse.InsertSequence
import RustHouse.HttpResponseSound
import RustHouse.OneColumnExact
import RustHouse.DistinctSound
import RustHouse.SelectReference
