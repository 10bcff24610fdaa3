/-!
# Vendors' kinds of application data

* `MediaType.vendorTypes`: the media types `application/vnd.…`, without this start, each with the extensions of its files.
-/

namespace SnippetPreview.MediaType

/-- The types of `application` that belong to a vendor, with their extensions. -/
def vendorTypes : List (String × String) :=
  [("3gpp.pic-bw-large", "plb"), ("3gpp.pic-bw-small", "psb"), ("3gpp.pic-bw-var", "pvb"), ("3gpp2.tcap", "tcap"),
    ("3m.post-it-notes", "pwn"), ("accpac.simply.aso", "aso"), ("accpac.simply.imp", "imp"), ("acucobol", "acu"),
    ("acucorp", "acutc atc"), ("adobe.air-application-installer-package+zip", "air"),
    ("adobe.formscentral.fcdt", "fcdt"), ("adobe.fxp", "fxp fxpl"), ("adobe.xdp+xml", "xdp"), ("adobe.xfdf", "xfdf"),
    ("ahead.space", "ahead"), ("airzip.filesecure.azf", "azf"), ("airzip.filesecure.azs", "azs"),
    ("amazon.ebook", "azw"), ("americandynamics.acc", "acc"), ("amiga.ami", "ami"), ("android.package-archive", "apk"),
    ("anser-web-certificate-issue-initiation", "cii"), ("anser-web-funds-transfer-initiation", "fti"),
    ("antix.game-component", "atx"), ("apple.installer+xml", "mpkg"), ("apple.keynote", "keynote"),
    ("apple.numbers", "numbers"), ("apple.pages", "pages"), ("apple.pkpass", "pkpass"), ("aristanetworks.swi", "swi"),
    ("astraea-software.iota", "iota"), ("audiograph", "aep"), ("blueice.multipass", "mpm"), ("bmi", "bmi"),
    ("businessobjects", "rep"), ("chemdraw+xml", "cdxml"), ("chipnuts.karaoke-mmd", "mmd"), ("cinderella", "cdy"),
    ("citationstyles.style+xml", "csl"), ("claymore", "cla"), ("cloanto.rp9", "rp9"),
    ("clonk.c4group", "c4d c4f c4g c4p c4u"), ("cluetrust.cartomobile-config", "c11amc"),
    ("cluetrust.cartomobile-config-pkg", "c11amz"), ("commonspace", "csp"), ("contact.cmsg", "cdbcmsg"),
    ("cosmocaller", "cmc"), ("crick.clicker", "clkx"), ("crick.clicker.keyboard", "clkk"),
    ("crick.clicker.palette", "clkp"), ("crick.clicker.template", "clkt"), ("crick.clicker.wordbank", "clkw"),
    ("criticaltools.wbs+xml", "wbs"), ("cups-ppd", "ppd"), ("curl.car", "car"), ("curl.pcurl", "pcurl"),
    ("dart", "dart"), ("data-vision.rdz", "rdz"), ("dece.data", "uvd uvf uvvd uvvf"), ("dece.ttml+xml", "uvt uvvt"),
    ("dece.unspecified", "uvvx uvx"), ("dece.zip", "uvvz uvz"), ("denovo.fcselayout-link", "fe_launch"), ("dna", "dna"),
    ("dolby.mlp", "mlp"), ("dpgraph", "dpg"), ("dreamfactory", "dfac"), ("ds-keypoint", "kpxx"), ("dvb.ait", "ait"),
    ("dynageo", "geo"), ("ecowin.chart", "mag"), ("enliven", "nml"), ("epson.esf", "esf"), ("epson.msf", "msf"),
    ("epson.quickanime", "qam"), ("epson.salt", "slt"), ("epson.ssf", "ssf"), ("eszigno3+xml", "es3 et3"),
    ("ezpix-album", "ez2"), ("ezpix-package", "ez3"), ("fdf", "fdf"), ("fdsn.mseed", "mseed"),
    ("fdsn.seed", "dataless seed"), ("flographit", "gph"), ("fluxtime.clip", "ftc"),
    ("framemaker", "book fm frame maker"), ("frogans.fnc", "fnc"), ("frogans.ltf", "ltf"), ("fsc.weblaunch", "fsc"),
    ("fujitsu.oasys", "oas"), ("fujitsu.oasys2", "oa2"), ("fujitsu.oasys3", "oa3"), ("fujitsu.oasysgp", "fg5"),
    ("fujitsu.oasysprs", "bh2"), ("fujixerox.ddd", "ddd"), ("fujixerox.docuworks", "xdw"),
    ("fujixerox.docuworks.binder", "xbd"), ("fuzzysheet", "fzs"), ("genomatix.tuxedo", "txd"), ("geogebra.file", "ggb"),
    ("geogebra.tool", "ggt"), ("geometry-explorer", "gex gre"), ("geonext", "gxt"), ("geoplan", "g2w"),
    ("geospace", "g3w"), ("gmx", "gmx"), ("google-apps.document", "gdoc"), ("google-apps.presentation", "gslides"),
    ("google-apps.spreadsheet", "gsheet"), ("google-earth.kml+xml", "kml"), ("google-earth.kmz", "kmz"),
    ("grafeq", "gqf gqs"), ("groove-account", "gac"), ("groove-help", "ghf"), ("groove-identity-message", "gim"),
    ("groove-injector", "grv"), ("groove-tool-message", "gtm"), ("groove-tool-template", "tpl"),
    ("groove-vcard", "vcg"), ("hal+xml", "hal"), ("handheld-entertainment+xml", "zmm"), ("hbci", "hbci"),
    ("hhe.lesson-player", "les"), ("hp-hpgl", "hpgl"), ("hp-hpid", "hpid"), ("hp-hps", "hps"), ("hp-jlyt", "jlt"),
    ("hp-pcl", "pcl"), ("hp-pclxl", "pclxl"), ("hydrostatix.sof-data", "sfd-hdstx"), ("ibm.minipay", "mpy"),
    ("ibm.modcap", "afp list3820 listafp"), ("ibm.rights-management", "irm"), ("ibm.secure-container", "sc"),
    ("iccprofile", "icc icm"), ("igloader", "igl"), ("immervision-ivp", "ivp"), ("immervision-ivu", "ivu"),
    ("insors.igm", "igm"), ("intercon.formnet", "xpw xpx"), ("intergeo", "i2g"), ("intu.qbo", "qbo"),
    ("intu.qfx", "qfx"), ("ipunplugged.rcprofile", "rcprofile"), ("irepository.package+xml", "irp"), ("is-xpr", "xpr"),
    ("isac.fcs", "fcs"), ("jam", "jam"), ("jcp.javame.midlet-rms", "rms"), ("jisp", "jisp"),
    ("joost.joda-archive", "joda"), ("kahootz", "ktr ktz"), ("kde.karbon", "karbon"), ("kde.kchart", "chrt"),
    ("kde.kformula", "kfo"), ("kde.kivio", "flw"), ("kde.kontour", "kon"), ("kde.kpresenter", "kpr kpt"),
    ("kde.kspread", "ksp"), ("kde.kword", "kwd kwt"), ("kenameaapp", "htke"), ("kidspiration", "kia"),
    ("kinar", "kne knp"), ("koan", "skd skm skp skt"), ("kodak-descriptor", "sse"), ("las.las+xml", "lasxml"),
    ("llamagraphics.life-balance.desktop", "lbd"), ("llamagraphics.life-balance.exchange+xml", "lbe"),
    ("lotus-1-2-3", "123"), ("lotus-approach", "apr"), ("lotus-freelance", "pre"), ("lotus-notes", "nsf"),
    ("lotus-organizer", "org"), ("lotus-screencam", "scm"), ("lotus-wordpro", "lwp"), ("macports.portpkg", "portpkg"),
    ("mcd", "mcd"), ("medcalcdata", "mc1"), ("mediastation.cdkey", "cdkey"), ("mfer", "mwf"), ("mfmp", "mfm"),
    ("micrografx.flo", "flo"), ("micrografx.igx", "igx"), ("mif", "mif"), ("mobius.daf", "daf"), ("mobius.dis", "dis"),
    ("mobius.mbk", "mbk"), ("mobius.mqy", "mqy"), ("mobius.msl", "msl"), ("mobius.plc", "plc"), ("mobius.txf", "txf"),
    ("mophun.application", "mpn"), ("mophun.certificate", "mpc"), ("mozilla.xul+xml", "xul"), ("ms-artgalry", "cil"),
    ("ms-excel", "slk xla xlc xld xlk xll xlm xls xlt xlw"), ("ms-excel.addin.macroEnabled.12", "xlam"),
    ("ms-excel.sheet.binary.macroEnabled.12", "xlsb"), ("ms-excel.sheet.macroEnabled.12", "xlsm"),
    ("ms-excel.template.macroEnabled.12", "xltm"), ("ms-fontobject", "eot"), ("ms-ims", "ims"), ("ms-lrm", "lrm"),
    ("ms-mediapackage", "mpf"), ("ms-office.calx", "calx"), ("ms-officetheme", "thmx"), ("ms-outlook", "msg"),
    ("ms-pki.certstore", "sst"), ("ms-pki.pko", "pko"), ("ms-pki.seccat", "cat"), ("ms-pki.stl", "stl"),
    ("ms-powerpoint", "pot ppa pps ppt pwz"), ("ms-powerpoint.addin.macroEnabled.12", "ppam"),
    ("ms-powerpoint.presentation.macroEnabled.12", "pptm"), ("ms-powerpoint.slide.macroEnabled.12", "sldm"),
    ("ms-powerpoint.slideshow.macroEnabled.12", "ppsm"), ("ms-powerpoint.template.macroEnabled.12", "potm"),
    ("ms-project", "mpp mpt"), ("ms-visio.viewer", "vdx"), ("ms-word.document.macroEnabled.12", "docm"),
    ("ms-word.template.macroEnabled.12", "dotm"), ("ms-works", "wcm wdb wks wps"), ("ms-wpl", "wpl"),
    ("ms-xpsdocument", "xps"), ("mseq", "mseq"), ("musician", "mus"), ("muvee.style", "msty"), ("mynfc", "taglet"),
    ("neurolanguage.nlu", "nlu"), ("nitf", "nitf ntf"), ("noblenet-directory", "nnd"), ("noblenet-sealer", "nns"),
    ("noblenet-web", "nnw"), ("nokia.n-gage.data", "ngdat"), ("nokia.n-gage.symbian.install", "n-gage"),
    ("nokia.radio-preset", "rpst"), ("nokia.radio-presets", "rpss"), ("novadigm.edm", "edm"), ("novadigm.edx", "edx"),
    ("novadigm.ext", "ext"), ("oasis.opendocument.chart", "odc"), ("oasis.opendocument.chart-template", "otc"),
    ("oasis.opendocument.database", "odb"), ("oasis.opendocument.formula", "odf"),
    ("oasis.opendocument.formula-template", "odft"), ("oasis.opendocument.graphics", "odg"),
    ("oasis.opendocument.graphics-template", "otg"), ("oasis.opendocument.image", "odi"),
    ("oasis.opendocument.image-template", "oti"), ("oasis.opendocument.presentation", "odp"),
    ("oasis.opendocument.presentation-template", "otp"), ("oasis.opendocument.spreadsheet", "ods"),
    ("oasis.opendocument.spreadsheet-template", "ots"), ("oasis.opendocument.text", "odt"),
    ("oasis.opendocument.text-master", "odm"), ("oasis.opendocument.text-template", "ott"),
    ("oasis.opendocument.text-web", "oth"), ("olpc-sugar", "xo"), ("oma.dd2+xml", "dd2"),
    ("openofficeorg.extension", "oxt"), ("openxmlformats-officedocument.presentationml.presentation", "pptx"),
    ("openxmlformats-officedocument.presentationml.slide", "sldx"),
    ("openxmlformats-officedocument.presentationml.slideshow", "ppsx"),
    ("openxmlformats-officedocument.presentationml.template", "potx"),
    ("openxmlformats-officedocument.spreadsheetml.sheet", "xlsx"),
    ("openxmlformats-officedocument.spreadsheetml.template", "xltx"),
    ("openxmlformats-officedocument.wordprocessingml.document", "docx"),
    ("openxmlformats-officedocument.wordprocessingml.template", "dotx"), ("osgeo.mapguide.package", "mgp"),
    ("osgi.dp", "dp"), ("osgi.subsystem", "esa"), ("palm", "oprc pdb pqa"), ("pawaafile", "paw"), ("pg.format", "str"),
    ("pg.osasli", "ei6"), ("picsel", "efif"), ("pmi.widget", "wg"), ("pocketlearn", "plf"), ("powerbuilder6", "pbd"),
    ("previewsystems.box", "box"), ("proteus.magazine", "mgz"), ("publishare-delta-tree", "qps"), ("pvi.ptid1", "ptid"),
    ("quark.quarkxpress", "qwd qwt qxb qxl qxt"), ("realvnc.bed", "bed"), ("recordare.musicxml", "mxl"),
    ("recordare.musicxml+xml", "musicxml"), ("rig.cryptonote", "cryptonote"), ("rn-realmedia", "rm"),
    ("rn-realmedia-vbr", "rmvb"), ("rn-rn_music_package", "rmp"), ("route66.link66+xml", "link66"),
    ("sailingtracker.track", "st"), ("seemail", "see"), ("sema", "sema"), ("semd", "semd"), ("semf", "semf"),
    ("shana.informed.formdata", "ifm"), ("shana.informed.formtemplate", "itp"), ("shana.informed.interchange", "iif"),
    ("shana.informed.package", "ipk"), ("simtech-mindmapper", "twd twds"), ("smart.teacher", "teacher"),
    ("solent.sdkm+xml", "sdkd sdkm"), ("spotfire.dxp", "dxp"), ("spotfire.sfs", "sfs"), ("stardivision.calc", "sdc"),
    ("stardivision.draw", "sda"), ("stardivision.impress", "sdd"), ("stardivision.math", "smf"),
    ("stardivision.writer", "sdw vor"), ("stardivision.writer-global", "sgl"), ("stepmania.package", "smzip"),
    ("stepmania.stepchart", "sm"), ("sun.wadl+xml", "wadl"), ("sun.xml.calc", "sxc"), ("sun.xml.calc.template", "stc"),
    ("sun.xml.draw", "sxd"), ("sun.xml.draw.template", "std"), ("sun.xml.impress", "sxi"),
    ("sun.xml.impress.template", "sti"), ("sun.xml.math", "sxm"), ("sun.xml.writer", "sxw"),
    ("sun.xml.writer.global", "sxg"), ("sun.xml.writer.template", "stw"), ("sus-calendar", "sus susp"), ("svd", "svd"),
    ("symbian.install", "sis sisx"), ("syncml+xml", "xsm"), ("syncml.dm+wbxml", "bdm"), ("syncml.dm+xml", "xdm"),
    ("tao.intent-module-archive", "tao"), ("tcpdump.pcap", "cap dmp pcap"), ("tmobile-livetv", "tmo"),
    ("trid.tpt", "tpt"), ("triscape.mxs", "mxs"), ("trueapp", "tra"), ("ufdl", "ufd ufdl"), ("uiq.theme", "utz"),
    ("umajin", "umj"), ("unity", "unityweb"), ("uoml+xml", "uoml"), ("vcx", "vcx"),
    ("visio", "vsd vss vst vsw vsx vtx"), ("visionary", "vis"), ("vsf", "vsf"), ("wap.wbxml", "wbxml"),
    ("wap.wmlc", "wmlc"), ("wap.wmlscriptc", "wmlsc"), ("webturbo", "wtb"), ("wolfram.player", "nbp"),
    ("wordperfect", "wpd"), ("wqd", "wqd"), ("wt.stf", "stf"), ("xara", "xar"), ("xfdl", "xfdl"),
    ("yamaha.hv-dic", "hvd"), ("yamaha.hv-script", "hvs"), ("yamaha.hv-voice", "hvp"),
    ("yamaha.openscoreformat", "osf"), ("yamaha.openscoreformat.osfpvg+xml", "osfpvg"), ("yamaha.smaf-audio", "saf"),
    ("yamaha.smaf-phrase", "spf"), ("yellowriver-custom-menu", "cmp"), ("zul", "zir zirz"), ("zzazz.deck+xml", "zaz")]

end SnippetPreview.MediaType
